import AccountAccess.Proofs.Session.InFlight

/-!
# The login that swaps last stays

However the calls of any number of logins of one owner are ordered, and however much time
passes between them, one of them stays: the one whose swap came last.  `InFlight` is kept
by every turn and so by every schedule, and each turn brings the login whose turn it is
nearer to its end; when all of them are through, the invariant says that a live token of the
owner is in the slot, and the slot holds the token that was swapped in last.

The one thing that can go wrong in calm surroundings is a session that would end beyond the
clock.  Such a login is given up and never has a result.

Which login swapped last is read off the calls that were made (`lastSwap?`) and not off the slot.
So the statement also makes sense when the session of that login is over by the end of the schedule,
or when its token was swapped in again by a login that found its own token in the slot.

## Main results

* `InFlight.play`: every schedule keeps the state of affairs.
* `InFlight.settled`: when every login has a result, one of them has swapped last.
* `InFlight.ownerOf_eq`: its token is live until its deadline, and no other token of the slot is.
* `InFlight.reads_other`: tokens that the slot is not about resolve as they would have.
* `last_swap_stays`: all of this, from any state that a run from an empty cache reaches.
-/

namespace AccountAccess
namespace Session

/-! ## Every schedule -/

section Schedule

variable {ι : Type} [DecidableEq ι] {issued : SessionOwner → String → Prop}
  {rivals : Rivals ι} {before : World} {stage : ι → Stage}
  {pool : Pool ι (Except CacheError Unit)}

/-- Logins may set out from any coherent surroundings. -/
theorem Coherent.inFlight (h : Coherent issued before) (rivals : Rivals ι) :
    InFlight issued rivals before (fun _ => .pending) (rivals.pool before) where
  calm := h.calm
  task _ := rfl
  token_entry token e he := by
    obtain ⟨owner, deadline, hissued, rfl⟩ := h.token_entry token e he
    exact ⟨owner, deadline, rfl, Or.inl hissued⟩
  slot_entry e he := by
    obtain ⟨token, deadline, hissued, rfl⟩ := h.slot_entry rivals.owner e he
    exact ⟨token, deadline, rfl, Or.inl hissued⟩
  outlived token deadline he hlive := Or.inl (h.outlived token rivals.owner deadline he hlive)
  retiring _ _ hi := absurd hi (by simp)
  written _ hi := absurd hi (by simp)
  last _ hi := absurd hi (by simp [Rivals.pool, lastSwap?])
  first _ _ hi := hi
  frame _ _ _ _ := rfl

/-- **Every schedule keeps the state of affairs**, unless a login is given up because its
session would end beyond the clock.  With every turn a login comes nearer to its end. -/
theorem InFlight.play (h : InFlight issued rivals before stage pool)
    (hfresh : ∀ owner j, ¬issued owner (rivals.token j)) (schedule : List (Turn ι)) :
    (∃ next, InFlight issued rivals before next (pool.play schedule) ∧
        ∀ j, (next j).left ≤ (stage j).left - schedule.count (.call j)) ∨
      ∃ i, (pool.play schedule).tasks i = .abort ∧
        clockEnd ≤ (pool.play schedule).world.clock / 1000 + (rivals.ttl i).toNat := by
  induction schedule generalizing stage pool with
  | nil => exact Or.inl ⟨stage, h, fun _ => Nat.le_refl _⟩
  | cons t schedule ih =>
    rcases h.turn hfresh t with ⟨next, hnext, hleft⟩ | ⟨i, hi, hend⟩
    · rcases ih hnext with ⟨last, hlast, hleft'⟩ | hgiven
      · refine Or.inl ⟨last, hlast, fun j => ?_⟩
        have hj := hleft j
        have hj' := hleft' j
        rw [List.count_cons]
        simp only [beq_iff_eq]
        omega
      · exact Or.inr hgiven
    · refine Or.inr ⟨i, Pool.tasks_play_of_abort hi schedule, Nat.le_trans hend ?_⟩
      rw [Pool.clock_play]
      exact Nat.add_le_add_right (Nat.div_le_div_right (Nat.le_add_right _ _)) _

theorem InFlight.finished (h : InFlight issued rivals before stage pool) {i : ι}
    {result : Except CacheError Unit} (hi : pool.tasks i = .done result) : stage i = .finished := by
  rw [h.task i] at hi
  exact Stage.eq_finished_of_done hi

/-- When every login has a result, all of them are finished, and one has swapped last. -/
theorem InFlight.settled [Nonempty ι] (h : InFlight issued rivals before stage pool)
    (hdone : ∀ i, ∃ result, pool.tasks i = .done result) :
    (∀ i, stage i = .finished) ∧
      ∃ last time, lastSwap? pool.made = some last ∧ writtenAt? pool.made last = some time := by
  have hfinished : ∀ i, stage i = .finished := by
    intro i
    obtain ⟨result, hresult⟩ := hdone i
    exact h.finished hresult
  refine ⟨hfinished, ?_⟩
  cases hlast : lastSwap? pool.made with
  | some last =>
    obtain ⟨-, time, -, htime, -⟩ := h.last last hlast
    exact ⟨last, time, rfl, htime⟩
  | none =>
    obtain ⟨i⟩ := ‹Nonempty ι›
    exact absurd (by simp [hfinished i]) (h.first hlast i)

/-- **When nobody is under way any more, the token that was swapped in last is live until
its deadline, and no other token of the slot is.** -/
theorem InFlight.ownerOf_eq (h : InFlight issued rivals before stage pool)
    (hfresh : ∀ owner j, ¬issued owner (rivals.token j))
    (honce : ∀ token owner other, issued owner token → issued other token → owner = other)
    (hfinished : ∀ i, stage i = .finished) {last : ι} {time : Nat}
    (hlast : lastSwap? pool.made = some last) (htime : writtenAt? pool.made last = some time)
    {token : String} (htoken : issued rivals.owner token ∨ ∃ i, token = rivals.token i) :
    ownerOf pool.world token =
      if token = rivals.token last ∧ pool.world.clock < time + 1000 * (rivals.ttl last).toNat then
        some rivals.owner
      else none := by
  obtain ⟨-, time', later, htime', -, hentry, hslot⟩ := h.last last hlast
  obtain rfl : time' = time := Option.some.inj (htime'.symm.trans htime)
  by_cases heq : token = rivals.token last
  · subst heq
    rw [ownerOf_eq_ite hentry]
    simp only [true_and]
  · rw [if_neg fun hand => heq hand.1]
    cases he : pool.world.entry (tokenKey token) with
    | none => exact ownerOf_eq_none he
    | some e =>
      obtain ⟨owner, deadline, rfl, howner⟩ := h.token_entry token e he
      -- the entry of a token of this slot names the owner of this slot
      have hsame : owner = rivals.owner := by
        rcases howner with hissued | ⟨hsame, -⟩
        · rcases htoken with hissued' | ⟨i, rfl⟩
          · exact honce token owner rivals.owner hissued hissued'
          · exact absurd hissued (hfresh owner i)
        · exact hsame
      subst hsame
      rw [ownerOf_eq_ite he, if_neg]
      intro hlive
      rcases h.outlived token deadline he hlive with ⟨later', -, hheld⟩ | ⟨i, hi, -⟩ | ⟨i, hi⟩
      · rw [hslot] at hheld
        obtain ⟨hcontra, -⟩ : rivals.token last = token ∧ later = later' := by simpa using hheld
        exact heq hcontra.symm
      · rw [hfinished i] at hi
        exact absurd hi (by simp)
      · rw [hfinished i] at hi
        exact absurd hi (by simp)

/-- A token that stands for the owner is one of those that the slot is about. -/
theorem InFlight.ofSlot_of_ownerOf (h : InFlight issued rivals before stage pool)
    {token : String} (howner : ownerOf pool.world token = some rivals.owner) :
    issued rivals.owner token ∨ ∃ i, token = rivals.token i := by
  cases he : pool.world.entry (tokenKey token) with
  | none =>
    rw [ownerOf_eq_none he] at howner
    exact absurd howner (by simp)
  | some e =>
    obtain ⟨owner, deadline, rfl, hissued⟩ := h.token_entry token e he
    rw [ownerOf_eq_ite he] at howner
    split at howner
    · rw [Option.some.inj howner] at hissued
      exact hissued.imp id And.right
    · exact absurd howner (by simp)

theorem InFlight.reads_slot (h : InFlight issued rivals before stage pool) {last : ι} {time : Nat}
    (hlast : lastSwap? pool.made = some last) (htime : writtenAt? pool.made last = some time)
    (hlive : pool.world.clock < time + 1000 * (rivals.ttl last).toNat) :
    pool.world.reads (slotKey rivals.owner) = some (rivals.token last) := by
  obtain ⟨-, time', later, htime', hlater, -, hslot⟩ := h.last last hlast
  obtain rfl : time' = time := Option.some.inj (htime'.symm.trans htime)
  exact World.reads_eq_some hslot (Nat.lt_of_lt_of_le hlive hlater)

theorem InFlight.reads_other (h : InFlight issued rivals before stage pool) {elapsed : Nat}
    (hclock : pool.world.clock = before.clock + elapsed) {token : String}
    (hissued : ¬issued rivals.owner token) (hother : ∀ i, token ≠ rivals.token i) :
    pool.world.reads (tokenKey token) = (before.advance elapsed).reads (tokenKey token) := by
  refine World.reads_congr hclock (h.frame _ (tokenKey_ne_slotKey _ _) ?_ ?_)
  · exact fun i => tokenKey_ne (hother i)
  · exact fun other hissued' => tokenKey_ne fun heq => hissued (heq ▸ hissued')

/-! ## The login that stays -/

/-- **The login that swaps last stays.**  Any number of logins of one owner set out after a
run from an empty cache, each with a token that was never issued, and their calls are
answered in any order while time passes.

A login that has had three turns is through, if its session does not end beyond the clock.
When all are through, whatever became of the others, one login has swapped last.  Its token
resolves until its own deadline, counted from when it was written, and until then it is
read in the slot; no other token of the slot resolves.  All other entries are as they were,
so every other token resolves as it would have without the logins. -/
theorem last_swap_stays [Nonempty ι] {world : World} (hpristine : Pristine world)
    {events : List Event} (hallowed : Allowed world.clock events)
    (honce : (issuedTokens events).Nodup) (rivals : Rivals ι)
    (hfresh : ∀ i, rivals.token i ∉ issuedTokens events) (schedule : List (Turn ι))
    {pool : Pool ι (Except CacheError Unit)}
    (hpool : (rivals.pool (playAll world events)).play schedule = pool) :
    ((∀ i, pool.world.clock / 1000 + (rivals.ttl i).toNat < clockEnd) →
      ∀ i, 3 ≤ schedule.count (.call i) → pool.tasks i = .done (.ok ())) ∧
    ((∀ i, ∃ result, pool.tasks i = .done result) →
      (∀ i, pool.tasks i = .done (.ok ())) ∧
      ∃ last time, lastSwap? pool.made = some last ∧ writtenAt? pool.made last = some time ∧
        (∀ milliseconds token,
          IssuedIn events rivals.owner token ∨ (∃ i, token = rivals.token i) →
          ((pool.world.advance milliseconds).run (resolve token)).1 =
            .finished (.ok (if token = rivals.token last ∧
              pool.world.clock + milliseconds < time + 1000 * (rivals.ttl last).toNat then
                some rivals.owner else none))) ∧
        (∀ milliseconds,
          pool.world.clock + milliseconds < time + 1000 * (rivals.ttl last).toNat →
          ((pool.world.advance milliseconds).run
            (Procedure.cache (.get (slotKey rivals.owner)))).1 =
              .finished (.ok (some (rivals.token last)))) ∧
        (∀ milliseconds token, Resolves (pool.world.advance milliseconds) token rivals.owner →
          token = rivals.token last) ∧
        (∀ key, key ≠ slotKey rivals.owner → (∀ i, key ≠ tokenKey (rivals.token i)) →
          (∀ token, IssuedIn events rivals.owner token → key ≠ tokenKey token) →
          pool.world.entry key = (playAll world events).entry key) ∧
        ∀ milliseconds token,
          ¬IssuedIn events rivals.owner token → (∀ i, token ≠ rivals.token i) →
          ((pool.world.advance milliseconds).run (resolve token)).1 =
            (((playAll world events).advance (Pool.duration schedule + milliseconds)).run
              (resolve token)).1) := by
  have hcoherent := hpristine.playAll hallowed honce
  have hnever : ∀ owner j, ¬IssuedIn events owner (rivals.token j) :=
    fun _ j hissued => hfresh j hissued.mem_issuedTokens
  have hplay := (hcoherent.inFlight rivals).play hnever schedule
  have hclock : pool.world.clock = (playAll world events).clock + Pool.duration schedule := by
    rw [← hpool, Pool.clock_play]
    rfl
  rw [hpool] at hplay
  refine ⟨fun hfits i hturns => ?_, fun hdone => ?_⟩
  · rcases hplay with ⟨stage, hflight, hleft⟩ | ⟨j, -, hend⟩
    · have hi : stage i = .finished := by
        have hleft : (stage i).left ≤ 3 - schedule.count (.call i) := hleft i
        exact Stage.eq_finished (by omega)
      rw [hflight.task i, hi]
      rfl
    · exact absurd (hfits j) (Nat.not_lt_of_le hend)
  · obtain ⟨stage, hflight⟩ : ∃ stage, InFlight (IssuedIn events) rivals (playAll world events)
        stage pool := by
      rcases hplay with ⟨stage, hflight, -⟩ | ⟨j, hgiven, -⟩
      · exact ⟨stage, hflight⟩
      · obtain ⟨result, hresult⟩ := hdone j
        rw [hgiven] at hresult
        exact absurd hresult (by simp)
    obtain ⟨hfinished, last, time, hlast, htime⟩ := hflight.settled hdone
    -- what holds when all are through still holds after a while
    have hlater := hflight.elapse
    have hcalm : ∀ milliseconds, (pool.world.advance milliseconds).Calm := hflight.calm.advance
    have howner : ∀ milliseconds token, IssuedIn events rivals.owner token ∨
        (∃ i, token = rivals.token i) → ownerOf (pool.world.advance milliseconds) token =
          if token = rivals.token last ∧
            pool.world.clock + milliseconds < time + 1000 * (rivals.ttl last).toNat then
              some rivals.owner else none :=
      fun milliseconds _ =>
        (hlater milliseconds).ownerOf_eq hnever hcoherent.issued_once hfinished hlast htime
    refine ⟨fun i => ?_, last, time, hlast, htime, ?_, ?_, ?_, ?_, ?_⟩
    · rw [hflight.task i, hfinished i]
      rfl
    · intro milliseconds token htoken
      rw [run_resolve (hcalm milliseconds), howner milliseconds token htoken]
    · intro milliseconds hlive
      rw [run_get (hcalm milliseconds)]
      exact congrArg (Outcome.finished ∘ Except.ok)
        ((hlater milliseconds).reads_slot hlast htime hlive)
    · intro milliseconds token hresolves
      have hthis := (resolves_iff (hcalm milliseconds)).1 hresolves
      rw [howner milliseconds token ((hlater milliseconds).ofSlot_of_ownerOf hthis)] at hthis
      split at hthis
      · rename_i hand
        exact hand.1
      · exact absurd hthis (by simp)
    · exact fun key hslot htoken hissued => hflight.frame key hslot htoken hissued
    · intro milliseconds token hissued hother
      have hclock : pool.world.clock + milliseconds =
          (playAll world events).clock + (Pool.duration schedule + milliseconds) := by
        rw [hclock, Nat.add_assoc]
      have hreads : (pool.world.advance milliseconds).reads (tokenKey token) = _ :=
        (hlater milliseconds).reads_other hclock hissued hother
      rw [run_resolve (hcalm milliseconds), run_resolve (hcoherent.calm.advance _), ownerOf,
        ownerOf, hreads]

end Schedule

/-- A login that is over before the others set out. -/
def earlierLogin : List Event :=
  [.login ⟨1, .web⟩ "old" 60]

/-- Two logins of one owner at once. -/
def twoAtOnce : Rivals (Fin 2) where
  owner := ⟨1, .web⟩
  token i := if i = 0 then "left" else "right"
  ttl _ := 60
  distinct := by
    rw [Function.Injective]
    decide

/-- A schedule in which the second login swaps first, and the first one swaps it out again
before either has removed a token. -/
def crossing : List (Turn (Fin 2)) :=
  [.call 0, .call 1, .call 1, .elapse 500, .call 0, .call 0, .call 1]

/-- Both logins after their calls have crossed. -/
def crossed : Pool (Fin 2) (Except CacheError Unit) :=
  (twoAtOnce.pool (playAll dawn earlierLogin)).play crossing

theorem last_swap_stays_crossing :
    Pristine dawn ∧ Allowed dawn.clock earlierLogin ∧ (issuedTokens earlierLogin).Nodup ∧
      (∀ i, twoAtOnce.token i ∉ issuedTokens earlierLogin) ∧
      (∀ i, crossed.tasks i = .done (.ok ())) ∧ lastSwap? crossed.made = some 0 ∧
      Resolves crossed.world "left" ⟨1, .web⟩ ∧ ¬Resolves crossed.world "right" ⟨1, .web⟩ ∧
      ¬Resolves crossed.world "old" ⟨1, .web⟩ := by
  have hallowed : Allowed dawn.clock earlierLogin := by
    simp only [earlierLogin, Allowed, Event.Allowed]
    decide
  have honce : (issuedTokens earlierLogin).Nodup := by decide
  have hfresh : ∀ i, twoAtOnce.token i ∉ issuedTokens earlierLogin := by decide
  have hcrossed : (twoAtOnce.pool (playAll dawn earlierLogin)).play crossing = crossed := rfl
  obtain ⟨hthrough, hstays⟩ :=
    last_swap_stays pristine_dawn hallowed honce twoAtOnce hfresh crossing hcrossed
  have hclock : crossed.world.clock = 500 := by decide +kernel
  have hdone : ∀ i, crossed.tasks i = .done (.ok ()) := by
    refine fun i => hthrough (fun j => ?_) i (by revert i; decide)
    rw [hclock]
    exact (by decide : ∀ j, 500 / 1000 + (twoAtOnce.ttl j).toNat < clockEnd) j
  obtain ⟨-, last, time, hlast, htime, hslot, -, honly, -⟩ := hstays fun i => ⟨_, hdone i⟩
  have hzero : lastSwap? crossed.made = some 0 := by decide +kernel
  obtain rfl : last = 0 := Option.some.inj (hlast.symm.trans hzero)
  have hwritten : writtenAt? crossed.made 0 = some 0 := by decide +kernel
  obtain rfl : time = 0 := Option.some.inj (htime.symm.trans hwritten)
  refine ⟨pristine_dawn, hallowed, honce, hfresh, hdone, hzero, ?_, ?_, ?_⟩
  · have hleft := hslot 0 "left" (Or.inr ⟨0, rfl⟩)
    rw [if_pos ⟨rfl, by decide +kernel⟩] at hleft
    exact hleft
  · exact fun hright => absurd (honly 0 "right" hright) (by decide)
  · exact fun hold => absurd (honly 0 "old" hold) (by decide)

end Session
end AccountAccess
