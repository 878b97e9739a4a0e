import AccountAccess.Proofs.Service.Pool
import AccountAccess.Proofs.Session.Run

/-!
# A login between its calls

Between its calls a login stands at one of four stages: nothing is done, its token is
written, the token it has swapped out is still to be removed, or it is finished.  The stage
says what the login has still to do, and `LoginTurn` says once what a turn of the login can
change in calm surroundings.  Whatever is to hold while logins and others take turns needs
to be looked at in these cases only.

A stage does not say what the cache holds.  Between two calls of a login others may have taken the
slot over or removed its token, so a stage is only what the login itself knows.

## Main definitions and results

* `Stage`, `Stage.remaining`: where a login stands, and what it has still to do.
* `Stage.left`: how many turns it needs at most, which every turn makes fewer.
* `Stage.ofSwap`: the stage after a swap, by the text that was read.
* `writtenAt?`: the time at which a login wrote its token, read off the calls.
* `LoginTurn`, `turn_login`: what a turn of a login changes, by its stage.
-/

namespace AccountAccess
namespace Session

/-! ## Stages -/

/-- Where a login stands between its calls. -/
inductive Stage where
  | pending
  | written
  /-- The slot is taken over, and the token that was swapped out is still to be removed. -/
  | retiring (previous : String)
  | finished
  deriving DecidableEq, Repr

/-- Whether the slot is taken over. -/
def Stage.HasSwapped : Stage → Prop
  | pending | written => False
  | retiring _ | finished => True

@[simp] theorem Stage.not_hasSwapped_pending : ¬Stage.pending.HasSwapped := id

@[simp] theorem Stage.not_hasSwapped_written : ¬Stage.written.HasSwapped := id

@[simp] theorem Stage.hasSwapped_retiring (previous : String) :
    (Stage.retiring previous).HasSwapped := trivial

@[simp] theorem Stage.hasSwapped_finished : Stage.finished.HasSwapped := trivial

/-- How many turns a login needs at most to come to its end. -/
def Stage.left : Stage → Nat
  | pending => 3
  | written => 2
  | retiring _ => 1
  | finished => 0

theorem Stage.eq_finished {stage : Stage} (h : stage.left = 0) : stage = .finished := by
  cases stage with
  | finished => rfl
  | _ => exact absurd h (by simp [left])

/-- What a login has still to do. -/
def Stage.remaining (owner : SessionOwner) (token : String) (ttl : UInt64) :
    Stage → Procedure (Except CacheError Unit)
  | pending => issue owner token ttl
  | written => takeOver owner token ttl
  | retiring previous => retire previous
  | finished => .done (.ok ())

/-- Only a login that is finished has a result. -/
theorem Stage.eq_finished_of_done {owner : SessionOwner} {token : String} {ttl : UInt64}
    {stage : Stage} {result : Except CacheError Unit}
    (h : stage.remaining owner token ttl = .done result) : stage = .finished := by
  cases stage with
  | finished => rfl
  | pending => exact absurd h (by simp [remaining, issue_eq])
  | written => exact absurd h (by simp [remaining, takeOver])
  | retiring previous =>
    exact absurd h (by simp [remaining, retire, Procedure.cache, Dialogue.call])

/-- The stage after a swap that has read a text in the slot, or none. -/
def Stage.ofSwap (token : String) : Option String → Stage
  | none => finished
  | some previous => if previous = token then finished else retiring previous

theorem Stage.remaining_ofSwap (owner : SessionOwner) (token : String) (ttl : UInt64)
    (previous : Option String) :
    (ofSwap token previous).remaining owner token ttl = afterSwap token previous := by
  cases previous with
  | none => rfl
  | some previous =>
    rw [ofSwap, afterSwap]
    split
    · rfl
    · rfl

/-- What is retired after a swap is another token. -/
theorem Stage.ofSwap_cases (token : String) (previous : Option String) :
    ofSwap token previous = finished ∨
      ∃ other, other ≠ token ∧ ofSwap token previous = retiring other := by
  cases previous with
  | none => exact Or.inl rfl
  | some previous =>
    rw [ofSwap]
    split
    · exact Or.inl rfl
    · exact Or.inr ⟨previous, ‹_›, rfl⟩

theorem Stage.left_ofSwap (token : String) (previous : Option String) :
    (ofSwap token previous).left ≤ 1 := by
  rcases ofSwap_cases token previous with hfinished | ⟨other, -, hretiring⟩
  · rw [hfinished]
    decide
  · rw [hretiring]
    exact Nat.le_refl 1

/-! ## When a token was written -/

section Written

variable {ι : Type} [DecidableEq ι]

/-- The time at which a task wrote its token. -/
def writtenAt? (made : List (Made ι)) (i : ι) : Option Nat :=
  made.findSome? fun m =>
    match m.call with
    | .cache (.set ..) => if m.task = i then some m.time else none
    | _ => none

variable {made : List (Made ι)} {i j : ι} {time : Nat} {key value : String} {ttl : UInt64}

theorem writtenAt?_set_self :
    writtenAt? (⟨i, time, .cache (.set key value ttl)⟩ :: made) i = some time := by
  rw [writtenAt?, List.findSome?_cons]
  simp only [if_true]

theorem writtenAt?_set_of_ne (hne : j ≠ i) :
    writtenAt? (⟨i, time, .cache (.set key value ttl)⟩ :: made) j = writtenAt? made j := by
  rw [writtenAt?, List.findSome?_cons]
  simp only [if_neg hne.symm]
  rfl

end Written

/-! ## A turn of a login -/

section Turn

variable {ι : Type} [DecidableEq ι]

/-- What a turn of a login changes in calm surroundings, by the stage of the login: the
token is written, the slot is taken over, the token that was swapped out is removed, or
there is nothing left to do.  A login whose session would end beyond the clock is given up. -/
inductive LoginTurn (owner : SessionOwner) (token : String) (ttl : UInt64)
    (pool : Pool ι (Except CacheError Unit)) (i : ι) :
    Stage → Pool ι (Except CacheError Unit) → Prop where
  | write (after : World)
      (halters : World.Alters pool.world (tokenKey token)
        (some (.textUntil owner.render (pool.world.clock + 1000 * ttl.toNat))) after) :
      LoginTurn owner token ttl pool i .pending
        ⟨after, Function.update pool.tasks i (Stage.written.remaining owner token ttl),
          ⟨i, pool.world.clock, .cache (.set (tokenKey token) owner.render ttl)⟩ :: pool.made⟩
  | swap (after : World)
      (halters : World.Alters pool.world (slotKey owner)
        (some (.textUntil token (pool.world.clock + 1000 * ttl.toNat))) after) :
      LoginTurn owner token ttl pool i .written
        ⟨after, Function.update pool.tasks i ((Stage.ofSwap token
            (pool.world.reads (slotKey owner))).remaining owner token ttl),
          ⟨i, pool.world.clock, .cache (.swap (slotKey owner) token ttl)⟩ :: pool.made⟩
  | remove (previous : String) (after : World)
      (halters : World.Alters pool.world (tokenKey previous) none after) :
      LoginTurn owner token ttl pool i (.retiring previous)
        ⟨after, Function.update pool.tasks i (Stage.finished.remaining owner token ttl),
          ⟨i, pool.world.clock, .cache (.remove [tokenKey previous])⟩ :: pool.made⟩
  | rest : LoginTurn owner token ttl pool i .finished pool
  | giveUp {stage : Stage} (next : Pool ι (Except CacheError Unit))
      (hgiven : next.tasks i = .abort) (hend : clockEnd ≤ pool.world.clock / 1000 + ttl.toNat) :
      LoginTurn owner token ttl pool i stage next

/-- **A turn of a login.**  The slot must hold a text if it holds anything. -/
theorem turn_login {owner : SessionOwner} {token : String} {ttl : UInt64} {stage : Stage}
    {pool : Pool ι (Except CacheError Unit)} {i : ι} (hcalm : pool.world.Calm)
    (htext : ∀ e, pool.world.entry (slotKey owner) = some e → ∃ v d, e = .textUntil v d)
    (htask : pool.tasks i = stage.remaining owner token ttl) :
    LoginTurn owner token ttl pool i stage (pool.turn (.call i)) := by
  cases stage with
  | pending =>
    rw [Stage.remaining, issue_eq] at htask
    rcases Nat.lt_or_ge (pool.world.clock / 1000 + ttl.toNat) clockEnd with hd | hd
    · obtain ⟨after, hanswer, halters⟩ :=
        hcalm.answer_set (tokenKey token) owner.render (expiry?_eq_some hd)
      rw [Pool.turn_of_finished htask hanswer]
      exact .write after halters
    · have hanswer := hcalm.answer_set_of_overflow (tokenKey token) owner.render
        (expiry?_eq_none hd)
      exact .giveUp _ (Pool.tasks_turn_of_aborted htask hanswer) hd
  | written =>
    rw [Stage.remaining, takeOver] at htask
    rcases Nat.lt_or_ge (pool.world.clock / 1000 + ttl.toNat) clockEnd with hd | hd
    · obtain ⟨after, hanswer, halters⟩ :=
        hcalm.answer_swap (slotKey owner) token (expiry?_eq_some hd) htext
      rw [Pool.turn_of_finished htask hanswer]
      simp only [← Stage.remaining_ofSwap owner token ttl]
      exact .swap after halters
    · have hanswer := hcalm.answer_swap_of_overflow (slotKey owner) token (expiry?_eq_none hd)
        htext
      exact .giveUp _ (Pool.tasks_turn_of_aborted htask hanswer) hd
  | retiring previous =>
    rw [Stage.remaining, retire, Procedure.cache, Dialogue.call] at htask
    obtain ⟨after, hanswer, halters⟩ := hcalm.answer_remove_one (tokenKey previous)
    rw [Pool.turn_of_finished htask hanswer]
    exact .remove previous after halters
  | finished =>
    rw [Stage.remaining] at htask
    rw [Pool.turn_of_done htask]
    exact .rest

end Turn
end Session
end AccountAccess
