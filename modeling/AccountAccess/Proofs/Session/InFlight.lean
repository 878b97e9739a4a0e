import AccountAccess.Proofs.Session.SlotMachine
import AccountAccess.Proofs.Session.Stage

/-!
# Logins of one owner at the same time

Any number of logins of one owner are under way at once, and between two cache calls of
one of them the calls of the others may be answered and time may pass.  The order is
decided by the swaps: each login takes the slot over from the one that swapped before it,
so the login that swaps last stays, and the others are retired one after the other.

The retirement may come late.  A token can be swapped out long before it is removed, and
its slot's entry may have expired or been taken over many times meanwhile.  So the
invariant `InFlight` does not say that a live token is in the slot.  It says that a live
token of the owner is in the slot, or is written and has not swapped yet, or is about to be
removed; a removal that is still due never concerns the token in the slot.  When nobody is
under way any more only the first of the three is left.

## Main definitions and results

* `Rivals`, `pool`: logins of one owner, each with a token of its own, before their calls.
* `lastSwap?`: the task that swapped last, read off the calls.
* `InFlight`: the state of affairs while they are under way.
* `InFlight.elapse`, `InFlight.write`, `InFlight.swap`, `InFlight.remove`: what keeps it, one lemma
  for time and one for each call.
* `InFlight.turn`: one turn keeps it, or a login is given up.
-/

namespace AccountAccess
namespace Session

/-! ## Logins under way -/

/-- Logins of one owner at the same time, each with a token of its own. -/
structure Rivals (ι : Type) where
  owner : SessionOwner
  token : ι → String
  ttl : ι → UInt64
  distinct : Function.Injective token

namespace Rivals

variable {ι : Type}

/-- What one of the logins has still to do. -/
def remaining (rivals : Rivals ι) (i : ι) (stage : Stage) : Procedure (Except CacheError Unit) :=
  stage.remaining rivals.owner (rivals.token i) (rivals.ttl i)

/-- The logins before any of them has made a call. -/
def pool (rivals : Rivals ι) (world : World) : Pool ι (Except CacheError Unit) :=
  { world, tasks := fun i => rivals.remaining i .pending }

end Rivals

/-! ## Who swapped last -/

section LastSwap

variable {ι : Type}

/-- The task that swapped last. -/
def lastSwap? (made : List (Made ι)) : Option ι :=
  made.findSome? fun m =>
    match m.call with
    | .cache (.swap ..) => some m.task
    | _ => none

variable {made : List (Made ι)} {i : ι} {time : Nat} {key value : String} {ttl : UInt64}

@[simp] theorem lastSwap?_set :
    lastSwap? (⟨i, time, .cache (.set key value ttl)⟩ :: made) = lastSwap? made := rfl

@[simp] theorem lastSwap?_swap :
    lastSwap? (⟨i, time, .cache (.swap key value ttl)⟩ :: made) = some i := rfl

end LastSwap

/-! ## The invariant -/

/-- A token that has been in the slot of the owner: it was issued before, or its login has
taken the slot over. -/
def BeenInSlot {ι : Type} (issued : SessionOwner → String → Prop) (rivals : Rivals ι)
    (stage : ι → Stage) (token : String) : Prop :=
  issued rivals.owner token ∨ ∃ i, (stage i).HasSwapped ∧ token = rivals.token i

theorem BeenInSlot.ne_token {ι : Type} {issued : SessionOwner → String → Prop}
    {rivals : Rivals ι} {stage : ι → Stage} {token : String} {i : ι}
    (h : BeenInSlot issued rivals stage token) (hfresh : ∀ owner j, ¬issued owner (rivals.token j))
    (hi : ¬(stage i).HasSwapped) : token ≠ rivals.token i := by
  rintro rfl
  rcases h with hissued | ⟨j, hj, heq⟩
  · exact hfresh _ i hissued
  · exact hi (rivals.distinct heq ▸ hj)

section InFlight

variable {ι : Type} [DecidableEq ι]

/-- A login that moves on does not give the slot back. -/
theorem BeenInSlot.update {issued : SessionOwner → String → Prop} {rivals : Rivals ι}
    {stage : ι → Stage} {token : String} {i : ι} {next : Stage}
    (h : BeenInSlot issued rivals stage token)
    (hnext : (stage i).HasSwapped → next.HasSwapped) :
    BeenInSlot issued rivals (Function.update stage i next) token := by
  rcases h with hissued | ⟨j, hj, rfl⟩
  · exact Or.inl hissued
  · refine Or.inr ⟨j, ?_, rfl⟩
    by_cases hji : j = i
    · subst hji
      rw [Function.update_self]
      exact hnext hj
    · rwa [Function.update_of_ne hji]

/-- The state of affairs while logins of one owner are under way, where `issued` says which
tokens were issued before, and `before` shows the entries at the start. -/
structure InFlight (issued : SessionOwner → String → Prop) (rivals : Rivals ι)
    (before : World) (stage : ι → Stage) (pool : Pool ι (Except CacheError Unit)) : Prop where
  calm : pool.world.Calm
  task : ∀ i, pool.tasks i = rivals.remaining i (stage i)
  token_entry : ∀ token e, pool.world.entry (tokenKey token) = some e →
    ∃ owner deadline, e = .textUntil owner.render deadline ∧
      (issued owner token ∨ owner = rivals.owner ∧ ∃ i, token = rivals.token i)
  slot_entry : ∀ e, pool.world.entry (slotKey rivals.owner) = some e →
    ∃ token deadline, e = .textUntil token deadline ∧ BeenInSlot issued rivals stage token
  outlived : ∀ token deadline,
    pool.world.entry (tokenKey token) = some (.textUntil rivals.owner.render deadline) →
    pool.world.clock < deadline →
    (∃ later, deadline ≤ later ∧
        pool.world.entry (slotKey rivals.owner) = some (.textUntil token later)) ∨
      (∃ i, stage i = .written ∧ token = rivals.token i) ∨ ∃ i, stage i = .retiring token
  retiring : ∀ i previous, stage i = .retiring previous →
    BeenInSlot issued rivals stage previous ∧
      ∀ deadline, pool.world.entry (slotKey rivals.owner) ≠ some (.textUntil previous deadline)
  written : ∀ i, stage i = .written → ∃ time, writtenAt? pool.made i = some time ∧
    time ≤ pool.world.clock ∧ pool.world.entry (tokenKey (rivals.token i)) =
      some (.textUntil rivals.owner.render (time + 1000 * (rivals.ttl i).toNat))
  last : ∀ i, lastSwap? pool.made = some i → (stage i).HasSwapped ∧
    ∃ time later, writtenAt? pool.made i = some time ∧
      time + 1000 * (rivals.ttl i).toNat ≤ later ∧
      pool.world.entry (tokenKey (rivals.token i)) =
        some (.textUntil rivals.owner.render (time + 1000 * (rivals.ttl i).toNat)) ∧
      pool.world.entry (slotKey rivals.owner) = some (.textUntil (rivals.token i) later)
  first : lastSwap? pool.made = none → ∀ i, ¬(stage i).HasSwapped
  frame : ∀ key, key ≠ slotKey rivals.owner → (∀ i, key ≠ tokenKey (rivals.token i)) →
    (∀ token, issued rivals.owner token → key ≠ tokenKey token) →
    pool.world.entry key = before.entry key

/-! ## One turn keeps it -/

namespace InFlight

variable {issued : SessionOwner → String → Prop} {rivals : Rivals ι} {before after : World}
  {stage : ι → Stage} {pool : Pool ι (Except CacheError Unit)} {i : ι}

theorem slot_text (h : InFlight issued rivals before stage pool) (e : CacheEntry)
    (he : pool.world.entry (slotKey rivals.owner) = some e) : ∃ v d, e = .textUntil v d := by
  obtain ⟨token, deadline, rfl, -⟩ := h.slot_entry e he
  exact ⟨token, deadline, rfl⟩

/-- What is read in the slot has been there. -/
theorem beenInSlot_of_reads (h : InFlight issued rivals before stage pool) {token : String}
    (hread : pool.world.reads (slotKey rivals.owner) = some token) :
    BeenInSlot issued rivals stage token := by
  cases hentry : pool.world.entry (slotKey rivals.owner) with
  | none =>
    rw [World.reads_eq_none hentry] at hread
    exact absurd hread (by simp)
  | some e =>
    obtain ⟨held, deadline, rfl, hheld⟩ := h.slot_entry e hentry
    rw [World.reads_eq_ite hentry] at hread
    split at hread
    · rwa [← Option.some.inj hread]
    · exact absurd hread (by simp)

theorem task_update (h : InFlight issued rivals before stage pool) (next : Stage) (j : ι) :
    Function.update pool.tasks i (rivals.remaining i next) j =
      rivals.remaining j (Function.update stage i next j) := by
  by_cases hji : j = i
  · subst hji
    rw [Function.update_self, Function.update_self]
  · rw [Function.update_of_ne hji, Function.update_of_ne hji, h.task j]

/-- Time may pass. -/
theorem elapse (h : InFlight issued rivals before stage pool) (milliseconds : Nat) :
    InFlight issued rivals before stage (pool.turn (.elapse milliseconds)) where
  calm := h.calm.advance milliseconds
  task := h.task
  token_entry := h.token_entry
  slot_entry := h.slot_entry
  outlived token deadline he hlive :=
    h.outlived token deadline he (Nat.lt_of_le_of_lt (Nat.le_add_right _ milliseconds) hlive)
  retiring := h.retiring
  written j hj := by
    obtain ⟨time, htime, hle, he⟩ := h.written j hj
    exact ⟨time, htime, Nat.le_add_right_of_le hle, he⟩
  last := h.last
  first := h.first
  frame := h.frame

/-- **A token is written.**  Its login has not swapped yet, which is what the invariant
excuses a live token outside the slot for. -/
theorem write (h : InFlight issued rivals before stage pool)
    (hi : stage i = .pending)
    (halters : World.Alters pool.world (tokenKey (rivals.token i)) (some (.textUntil
      rivals.owner.render (pool.world.clock + 1000 * (rivals.ttl i).toNat))) after) :
    InFlight issued rivals before (Function.update stage i .written)
      ⟨after, Function.update pool.tasks i (rivals.remaining i .written),
        ⟨i, pool.world.clock,
          .cache (.set (tokenKey (rivals.token i)) rivals.owner.render (rivals.ttl i))⟩ ::
            pool.made⟩ where
  calm := halters.calm
  task := h.task_update .written
  token_entry token e he := by
    by_cases htoken : token = rivals.token i
    · subst htoken
      rw [halters.entry_self] at he
      exact ⟨_, _, (Option.some.inj he).symm, Or.inr ⟨rfl, i, rfl⟩⟩
    · rw [halters.entry_of_ne (tokenKey_ne htoken)] at he
      exact h.token_entry token e he
  slot_entry e he := by
    rw [halters.entry_of_ne (tokenKey_ne_slotKey _ _).symm] at he
    obtain ⟨token, deadline, rfl, hbeen⟩ := h.slot_entry e he
    exact ⟨token, deadline, rfl, hbeen.update fun hswapped => absurd hswapped (by simp [hi])⟩
  outlived token deadline he hlive := by
    rw [halters.entry_of_ne (tokenKey_ne_slotKey _ _).symm]
    by_cases htoken : token = rivals.token i
    · exact Or.inr (Or.inl ⟨i, Function.update_self i _ _, htoken⟩)
    · rw [halters.entry_of_ne (tokenKey_ne htoken)] at he
      rw [halters.clock] at hlive
      rcases h.outlived token deadline he hlive with hslot | ⟨j, hj, hjtoken⟩ | ⟨j, hj⟩
      · exact Or.inl hslot
      · refine Or.inr (Or.inl ⟨j, ?_, hjtoken⟩)
        rwa [Function.update_of_ne (by rintro rfl; exact htoken hjtoken)]
      · refine Or.inr (Or.inr ⟨j, ?_⟩)
        rwa [Function.update_of_ne (by rintro rfl; simp [hi] at hj)]
  retiring j previous hj := by
    have hne : j ≠ i := by
      rintro rfl
      simp at hj
    rw [Function.update_of_ne hne] at hj
    obtain ⟨hbeen, hslot⟩ := h.retiring j previous hj
    rw [halters.entry_of_ne (tokenKey_ne_slotKey _ _).symm]
    exact ⟨hbeen.update fun hswapped => absurd hswapped (by simp [hi]), hslot⟩
  written j hj := by
    rw [halters.clock]
    by_cases hji : j = i
    · subst hji
      exact ⟨_, writtenAt?_set_self, Nat.le_refl _, halters.entry_self⟩
    · rw [Function.update_of_ne hji] at hj
      rw [writtenAt?_set_of_ne hji,
        halters.entry_of_ne (tokenKey_ne (rivals.distinct.ne hji))]
      exact h.written j hj
  last j hj := by
    rw [lastSwap?_set] at hj
    obtain ⟨hswapped, hrest⟩ := h.last j hj
    have hji : j ≠ i := by
      rintro rfl
      simp [hi] at hswapped
    rw [Function.update_of_ne hji, writtenAt?_set_of_ne hji,
      halters.entry_of_ne (tokenKey_ne (rivals.distinct.ne hji)),
      halters.entry_of_ne (tokenKey_ne_slotKey _ _).symm]
    exact ⟨hswapped, hrest⟩
  first hnone j hj := by
    by_cases hji : j = i
    · subst hji
      simp at hj
    · rw [Function.update_of_ne hji] at hj
      exact h.first hnone j hj
  frame key hslot htoken hissued := by
    rw [halters.entry_of_ne (htoken i)]
    exact h.frame key hslot htoken hissued

/-- **The slot is taken over.**  The token that is read there is from now on due to be
removed; if nothing is read there, no other token was live in the slot. -/
theorem swap (h : InFlight issued rivals before stage pool)
    (hfresh : ∀ owner j, ¬issued owner (rivals.token j)) (hi : stage i = .written) {next : Stage}
    (hnext : pool.world.reads (slotKey rivals.owner) = none ∧ next = .finished ∨
      ∃ previous, pool.world.reads (slotKey rivals.owner) = some previous ∧
        next = .retiring previous)
    (halters : World.Alters pool.world (slotKey rivals.owner) (some (.textUntil
      (rivals.token i) (pool.world.clock + 1000 * (rivals.ttl i).toNat))) after) :
    InFlight issued rivals before (Function.update stage i next)
      ⟨after, Function.update pool.tasks i (rivals.remaining i next),
        ⟨i, pool.world.clock,
          .cache (.swap (slotKey rivals.owner) (rivals.token i) (rivals.ttl i))⟩ :: pool.made⟩ := by
  have hunswapped : ¬(stage i).HasSwapped := by simp [hi]
  have hswapped : next.HasSwapped := by
    rcases hnext with ⟨-, rfl⟩ | ⟨previous, -, rfl⟩
    · exact trivial
    · exact trivial
  have hbeen : ∀ {token}, BeenInSlot issued rivals stage token →
      BeenInSlot issued rivals (Function.update stage i next) token :=
    fun hbeen => hbeen.update fun _ => hswapped
  have hslot := halters.entry_self
  have htoken : ∀ token, after.entry (tokenKey token) = pool.world.entry (tokenKey token) :=
    fun token => halters.entry_of_ne (tokenKey_ne_slotKey token rivals.owner)
  obtain ⟨time, htime, hle, hwritten⟩ := h.written i hi
  refine
    { calm := halters.calm, task := h.task_update next, token_entry := ?_, slot_entry := ?_,
      outlived := ?_, retiring := ?_, written := ?_, last := ?_, first := ?_, frame := ?_ }
  · intro token e he
    rw [htoken] at he
    exact h.token_entry token e he
  · intro e he
    rw [hslot] at he
    refine ⟨_, _, (Option.some.inj he).symm, Or.inr ⟨i, ?_, rfl⟩⟩
    rwa [Function.update_self]
  · intro token deadline he hlive
    rw [htoken] at he
    rw [halters.clock] at hlive
    rcases h.outlived token deadline he hlive with ⟨later, hlater, hheld⟩ | hrest
    · -- a live token in the slot is what the swap reads
      have hread := World.reads_eq_some hheld (Nat.lt_of_lt_of_le hlive hlater)
      rcases hnext with ⟨hnone, -⟩ | ⟨previous, hprevious, rfl⟩
      · rw [hnone] at hread
        exact absurd hread (by simp)
      · rw [hprevious] at hread
        refine Or.inr (Or.inr ⟨i, ?_⟩)
        rw [Function.update_self, Option.some.inj hread]
    · rcases hrest with ⟨j, hj, rfl⟩ | ⟨j, hj⟩
      · by_cases hji : j = i
        · subst hji
          rw [hwritten] at he
          obtain rfl : _ = deadline := by simpa using he
          exact Or.inl ⟨_, Nat.add_le_add_right hle _, hslot⟩
        · refine Or.inr (Or.inl ⟨j, ?_, rfl⟩)
          rwa [Function.update_of_ne hji]
      · refine Or.inr (Or.inr ⟨j, ?_⟩)
        rwa [Function.update_of_ne (by rintro rfl; simp [hi] at hj)]
  · intro j previous hj
    -- whatever is due to be removed has been in the slot, which this login's token has not
    have hprevious : BeenInSlot issued rivals stage previous := by
      by_cases hji : j = i
      · subst hji
        rw [Function.update_self] at hj
        rcases hnext with ⟨-, rfl⟩ | ⟨read, hread, rfl⟩
        · exact absurd hj (by simp)
        · rw [← Stage.retiring.inj hj]
          exact h.beenInSlot_of_reads hread
      · rw [Function.update_of_ne hji] at hj
        exact (h.retiring j previous hj).1
    refine ⟨hbeen hprevious, fun deadline he => ?_⟩
    rw [hslot] at he
    obtain ⟨heq, -⟩ : rivals.token i = previous ∧ _ = deadline := by simpa using he
    exact hprevious.ne_token hfresh hunswapped heq.symm
  · intro j hj
    have hji : j ≠ i := by
      rintro rfl
      rw [Function.update_self] at hj
      simp [hj] at hswapped
    rw [Function.update_of_ne hji] at hj
    rw [halters.clock, htoken]
    exact h.written j hj
  · intro j hj
    obtain rfl : i = j := Option.some.inj hj
    refine ⟨?_, time, _, htime, Nat.add_le_add_right hle _, ?_, hslot⟩
    · rwa [Function.update_self]
    · rw [htoken, hwritten]
  · exact fun hnone => absurd hnone (by simp)
  · intro key hkey htok hissued
    rw [halters.entry_of_ne hkey]
    exact h.frame key hkey htok hissued

/-- **A token that was swapped out is removed.**  It has been in the slot and is not there
now, so it is neither the token of a login that has yet to swap nor the one that stays. -/
theorem remove (h : InFlight issued rivals before stage pool)
    (hfresh : ∀ owner j, ¬issued owner (rivals.token j)) {previous : String}
    (hi : stage i = .retiring previous)
    (halters : World.Alters pool.world (tokenKey previous) none after) :
    InFlight issued rivals before (Function.update stage i .finished)
      ⟨after, Function.update pool.tasks i (rivals.remaining i .finished),
        ⟨i, pool.world.clock, .cache (.remove [tokenKey previous])⟩ :: pool.made⟩ := by
  obtain ⟨hprevious, hout⟩ := h.retiring i previous hi
  have hbeen : ∀ {token}, BeenInSlot issued rivals stage token →
      BeenInSlot issued rivals (Function.update stage i .finished) token :=
    fun hbeen => hbeen.update fun _ => trivial
  have hslot : after.entry (slotKey rivals.owner) = pool.world.entry (slotKey rivals.owner) :=
    halters.entry_of_ne (tokenKey_ne_slotKey previous rivals.owner).symm
  have htoken : ∀ {token e}, after.entry (tokenKey token) = some e →
      token ≠ previous ∧ pool.world.entry (tokenKey token) = some e := by
    intro token e he
    have hne : token ≠ previous := by
      rintro rfl
      rw [halters.entry_self] at he
      exact absurd he (by simp)
    rw [halters.entry_of_ne (tokenKey_ne hne)] at he
    exact ⟨hne, he⟩
  have hother : ∀ {j}, stage j ≠ .retiring previous →
      Function.update stage i .finished j = stage j :=
    fun hj => Function.update_of_ne (by rintro rfl; exact hj hi) _ _
  refine
    { calm := halters.calm, task := h.task_update .finished, token_entry := ?_, slot_entry := ?_,
      outlived := ?_, retiring := ?_, written := ?_, last := ?_, first := ?_, frame := ?_ }
  · intro token e he
    exact h.token_entry token e (htoken he).2
  · intro e he
    rw [hslot] at he
    obtain ⟨token, deadline, rfl, htok⟩ := h.slot_entry e he
    exact ⟨token, deadline, rfl, hbeen htok⟩
  · intro token deadline he hlive
    obtain ⟨hne, he⟩ := htoken he
    rw [halters.clock] at hlive
    rw [hslot]
    rcases h.outlived token deadline he hlive with hheld | ⟨j, hj, rfl⟩ | ⟨j, hj⟩
    · exact Or.inl hheld
    · exact Or.inr (Or.inl ⟨j, (hother (by simp [hj])).trans hj, rfl⟩)
    · exact Or.inr (Or.inr ⟨j, (hother (by simpa [hj] using hne)).trans hj⟩)
  · intro j token hj
    have hji : j ≠ i := by
      rintro rfl
      simp at hj
    rw [Function.update_of_ne hji] at hj
    rw [hslot]
    exact ⟨hbeen (h.retiring j token hj).1, (h.retiring j token hj).2⟩
  · intro j hj
    have hji : j ≠ i := by
      rintro rfl
      simp at hj
    rw [Function.update_of_ne hji] at hj
    have hne := hprevious.ne_token hfresh (show ¬(stage j).HasSwapped by simp [hj])
    rw [halters.clock, halters.entry_of_ne (tokenKey_ne hne.symm)]
    exact h.written j hj
  · intro j hj
    obtain ⟨hswapped, time, later, htime, hlater, he, hheld⟩ := h.last j hj
    have hne : rivals.token j ≠ previous := by
      rintro rfl
      exact hout later hheld
    refine ⟨?_, time, later, htime, hlater, ?_, ?_⟩
    · by_cases hji : j = i
      · rw [hji, Function.update_self]
        exact trivial
      · rwa [Function.update_of_ne hji]
    · rw [halters.entry_of_ne (tokenKey_ne hne), he]
    · rw [hslot, hheld]
  · intro hnone
    exact absurd (by simp [hi]) (h.first hnone i)
  · intro key hkey htok hissued
    rw [halters.entry_of_ne ?_]
    · exact h.frame key hkey htok hissued
    · rcases hprevious with hold | ⟨j, -, rfl⟩
      · exact hissued previous hold
      · exact htok j

theorem left_update {next : Stage} (hnext : next.left ≤ (stage i).left - 1) (j : ι) :
    (Function.update stage i next j).left ≤
      (stage j).left - if Turn.call i = Turn.call j then 1 else 0 := by
  by_cases hji : j = i
  · subst hji
    rwa [Function.update_self, if_pos rfl]
  · rw [Function.update_of_ne hji, if_neg fun heq => hji (Turn.call.inj heq).symm]
    exact Nat.le_refl _

/-- **One turn.**  Either it keeps the state of affairs, and a login whose turn it is moves
on, or a login is given up because its session would end beyond the clock. -/
theorem turn (h : InFlight issued rivals before stage pool)
    (hfresh : ∀ owner j, ¬issued owner (rivals.token j)) (t : Turn ι) :
    (∃ next, InFlight issued rivals before next (pool.turn t) ∧
        ∀ j, (next j).left ≤ (stage j).left - if t = .call j then 1 else 0) ∨
      ∃ i, (pool.turn t).tasks i = .abort ∧
        clockEnd ≤ pool.world.clock / 1000 + (rivals.ttl i).toNat := by
  cases t with
  | elapse milliseconds =>
    exact Or.inl ⟨stage, h.elapse milliseconds, fun _ => Nat.le_refl _⟩
  | call i =>
    have hturn := turn_login h.calm h.slot_text (h.task i)
    generalize hi : stage i = here at hturn
    generalize pool.turn (.call i) = played at hturn ⊢
    cases hturn with
    | giveUp _ hgiven hend => exact Or.inr ⟨i, hgiven, hend⟩
    | write after halters =>
      exact Or.inl ⟨_, h.write hi halters, left_update (by simp [hi, Stage.left])⟩
    | swap after halters =>
      refine Or.inl ⟨_, h.swap hfresh hi ?_ halters, left_update ?_⟩
      · cases hread : pool.world.reads (slotKey rivals.owner) with
        | none => exact Or.inl ⟨rfl, rfl⟩
        | some previous =>
          have hne := (h.beenInSlot_of_reads hread).ne_token hfresh
            (show ¬(stage i).HasSwapped by simp [hi])
          exact Or.inr ⟨previous, rfl, if_neg hne⟩
      · rw [hi]
        exact Stage.left_ofSwap _ _
    | remove previous after halters =>
      exact Or.inl ⟨_, h.remove hfresh hi halters, left_update (by simp [hi, Stage.left])⟩
    | rest =>
      refine Or.inl ⟨stage, h, fun j => ?_⟩
      by_cases hji : j = i
      · simp [hji, hi, Stage.left]
      · rw [if_neg fun heq => hji (Turn.call.inj heq).symm]
        exact Nat.le_refl _

end InFlight

end InFlight
end Session
end AccountAccess
