import AccountAccess.Proofs.Service.Faults
import AccountAccess.Proofs.Service.Pool
import AccountAccess.Proofs.Service.Scope

/-!
# The effect of a call in any surroundings

Where calls may fail, each of the calls that codes and tokens are made of still has one of
two effects: it did what it does in calm surroundings and says so, or it says something else
and left every entry as it was.  None of them moves the clock or changes the store.

Which of the two it is can be told beforehand, from the faults that are set and from whether the
cache answers at all.  `fails` and `answersCache` say so of a kind of calls, and a call of a kind
is counted off for its own kind only.  So what is known of the other kinds is still known after it,
and a procedure of several calls can be gone through with the same few facts.

## Main results

* `run_bind`: what is continued with a result goes on from where it was reached.
* `answer_get_cases`, `answer_set_cases`, `answer_remove_cases`: single calls, whether or not they
  are answered.
* `clock_run`, `faults_answer`: what no procedure and no call changes.
* `Passes`, `Passes.run`: calls that are not made to fail go on to pass.
* `run_store_cases`, `run_cache_cases`: the whole effect of a call, and when it fails.
-/

namespace AccountAccess
namespace World

/-! ## Procedures in a row -/

theorem run_bind {α β : Type} {world after : World} {procedure : Procedure α} {result : α}
    (h : world.run procedure = (.finished result, after)) (next : α → Procedure β) :
    world.run (procedure >>= next) = after.run (next result) := by
  have hrun : Dialogue.run World.answer procedure world = (.finished result, after) := h
  rw [run, Dialogue.run_bind, hrun]
  rfl

theorem run_bind_of_aborted {α β : Type} {world after : World} {procedure : Procedure α}
    (h : world.run procedure = (.aborted, after)) (next : α → Procedure β) :
    world.run (procedure >>= next) = (.aborted, after) := by
  have hrun : Dialogue.run World.answer procedure world = (.aborted, after) := h
  rw [run, Dialogue.run_bind, hrun]

/-! ## Single calls -/

theorem answer_cache_eq (world : World) (call : CacheCall) :
    ∃ outcome after, World.answer (.cache call) world = (outcome, after) ∧
      after.clock = world.clock ∧ after.store = world.store :=
  ⟨_, _, rfl, clock_answer (.cache call) world, store_answer_cache world call⟩

/-- A reading answers with what is read, or fails. -/
theorem answer_get_cases (world : World) (key : String) :
    ∃ result after, World.answer (.cache (.get key)) world = (.finished result, after) ∧
      after.clock = world.clock ∧ after.store = world.store ∧ after.entry = world.entry ∧
      (result = .ok (world.reads key) ∨ ∃ e, result = .error e) := by
  obtain ⟨_, _, hstays, -, hstore⟩ := answer_cache_eq world (.get key)
  rcases answer_of_unhindered (world.calm_unhindered.answer_get key) with
    ⟨e, after, hanswer, hafter⟩ | ⟨after, hanswer, hafter⟩
  · obtain ⟨-, hclock, hentry⟩ := of_refused hafter
    obtain ⟨rfl, rfl⟩ := Prod.mk.inj (hstays.symm.trans hanswer)
    exact ⟨_, _, hanswer, hclock, hstore, hentry, Or.inr ⟨e, rfl⟩⟩
  · obtain ⟨-, hclock, hentry⟩ := of_refused hafter
    obtain ⟨rfl, rfl⟩ := Prod.mk.inj (hstays.symm.trans hanswer)
    exact ⟨_, _, hanswer, hclock, hstore, hentry, Or.inl rfl⟩

theorem eq_of_expiry? {now deadline : Nat} {ttl : UInt64} (h : expiry? now ttl = some deadline) :
    deadline = now + 1000 * ttl.toNat := by
  rw [expiry?] at h
  split at h
  · exact (Option.some.inj h).symm
  · exact absurd h (by simp)

/-- A text is written and its end lies on the clock, or no entry changes. -/
theorem answer_set_cases (world : World) (key value : String) (ttl : UInt64) :
    ∃ outcome after, World.answer (.cache (.set key value ttl)) world = (outcome, after) ∧
      after.clock = world.clock ∧ after.store = world.store ∧
      ((outcome ≠ .finished (.ok ()) ∧ after.entry = world.entry) ∨
        ∃ deadline, outcome = .finished (.ok ()) ∧ expiry? world.clock ttl = some deadline ∧
          after.entry = Function.update world.entry key (some (.textUntil value deadline))) := by
  obtain ⟨outcome, after, hanswer, hclock, hstore⟩ := answer_cache_eq world (.set key value ttl)
  refine ⟨outcome, after, hanswer, hclock, hstore, ?_⟩
  cases hd : expiry? world.clock ttl with
  | some deadline =>
    obtain ⟨written, hwritten, hset⟩ := world.calm_unhindered.answer_set key value hd
    rcases answer_of_unhindered hwritten with ⟨e, _, hrefused, hafter⟩ | ⟨_, hpassed, rfl⟩
    · obtain ⟨rfl, rfl⟩ := Prod.mk.inj (hanswer.symm.trans hrefused)
      exact Or.inl ⟨by simp, (of_refused hafter).2.2⟩
    · obtain ⟨rfl, rfl⟩ := Prod.mk.inj (hanswer.symm.trans hpassed)
      exact Or.inr ⟨deadline, rfl, rfl, hset.entry_eq⟩
  | none =>
    rcases answer_of_unhindered (world.calm_unhindered.answer_set_of_overflow key value hd) with
      ⟨e, _, hrefused, hafter⟩ | ⟨_, hpassed, hafter⟩
    · obtain ⟨rfl, rfl⟩ := Prod.mk.inj (hanswer.symm.trans hrefused)
      exact Or.inl ⟨by simp, (of_refused hafter).2.2⟩
    · obtain ⟨rfl, rfl⟩ := Prod.mk.inj (hanswer.symm.trans hpassed)
      exact Or.inl ⟨by simp, (of_refused hafter).2.2⟩

/-- An entry is removed, or no entry changes. -/
theorem answer_remove_cases (world : World) (key : String) :
    ∃ result after, World.answer (.cache (.remove [key])) world = (.finished result, after) ∧
      after.clock = world.clock ∧ after.store = world.store ∧
      ((∃ e, result = .error e ∧ after.entry = world.entry) ∨
        (result = .ok () ∧ after.entry = Function.update world.entry key none)) := by
  obtain ⟨outcome, after, hanswer, hclock, hstore⟩ := answer_cache_eq world (.remove [key])
  obtain ⟨gone, hgone, hremove⟩ := world.calm_unhindered.answer_remove_one key
  rcases answer_of_unhindered hgone with ⟨e, _, hrefused, hafter⟩ | ⟨_, hpassed, rfl⟩
  · obtain ⟨rfl, rfl⟩ := Prod.mk.inj (hanswer.symm.trans hrefused)
    exact ⟨_, _, hanswer, hclock, hstore, Or.inl ⟨e, rfl, (of_refused hafter).2.2⟩⟩
  · obtain ⟨rfl, rfl⟩ := Prod.mk.inj (hanswer.symm.trans hpassed)
    exact ⟨_, _, hanswer, hclock, hstore, Or.inr ⟨rfl, hremove.entry_eq⟩⟩

/-! ## What no call changes -/

theorem clock_run {α : Type} (world : World) (procedure : Procedure α) :
    (world.run procedure).2.clock = world.clock :=
  Dialogue.run_keeps (fun after => after.clock = world.clock)
    (fun call between h => (clock_answer call between).trans h) procedure rfl

/-- Counting a call off makes no other kind of calls fail. -/
theorem faults_strike (world : World) {kind : CallKind} (h : world.faults kind = none)
    (struck : CallKind) : (world.strike struck).2.faults kind = none := by
  rw [strike]
  split
  · exact h
  · exact h
  · rename_i hstruck
    have hne : kind ≠ struck := by
      rintro rfl
      rw [h] at hstruck
      exact absurd hstruck (by simp)
    exact (if_neg hne).trans h

/-- Whatever is called, a kind of calls that is not made to fail goes on to pass. -/
theorem faults_answer {world : World} {kind : CallKind} (h : world.faults kind = none)
    (call : ServiceCall) : (World.answer call world).2.faults kind = none := by
  cases call with
  | cache call =>
    have hstrike := (world.noted (.cache call)).faults_strike h call.kind
    simp only [World.answer, World.answerCache]
    split
    · rename_i hstruck
      rwa [hstruck] at hstrike
    · rename_i hstruck
      rw [hstruck] at hstrike
      split
      · exact hstrike
      · exact hstrike
  | store call =>
    have hstrike := (world.noted (.store call)).faults_strike h call.kind
    simp only [World.answer, World.answerStore]
    split
    · rename_i hstruck
      rwa [hstruck] at hstrike
    · rename_i hstruck
      rw [hstruck] at hstrike
      exact hstrike
  | _ => exact h

/-- Calls of a kind pass: the cache answers, and they are not made to fail. -/
structure Passes (world : World) (kind : CallKind) : Prop where
  isAvailable : world.cache.isAvailable = true
  unhindered : world.faults kind = none

namespace Passes

variable {world : World} {kind : CallKind}

/-- What passes is answered by the cache. -/
theorem answer_eq (call : CacheCall) (h : world.Passes call.kind) :
    World.answer (.cache call) world =
      ((world.cache.perform world.clock call).1.elim .aborted .finished,
        { world.noted (.cache call) with cache := (world.cache.perform world.clock call).2 }) := by
  have hstrike : (world.noted (.cache call)).strike call.kind =
      (none, world.noted (.cache call)) := by
    rw [strike, show (world.noted (.cache call)).faults = world.faults from rfl, h.unhindered]
  have hcache : (world.noted (.cache call)).cache.answer (world.noted (.cache call)).clock call =
      world.cache.perform world.clock call := if_pos h.isAvailable
  simp only [World.answer, World.answerCache, hstrike, hcache]
  rcases world.cache.perform world.clock call with ⟨_ | answer, cache⟩
  · rfl
  · rfl

/-- After any call the calls of the kind still pass. -/
theorem answer (h : world.Passes kind) (call : ServiceCall) :
    (World.answer call world).2.Passes kind := by
  refine ⟨?_, faults_answer h.unhindered call⟩
  cases call with
  | cache call =>
    obtain ⟨faults, cache, hworld, rfl | rfl⟩ := answer_cache_world world call
    · rw [hworld]
      exact h.isAvailable
    · rw [hworld]
      exact (MemoryCache.isAvailable_perform _ _ _).trans h.isAvailable
  | store call =>
    rw [cache_answer_store]
    exact h.isAvailable
  | _ => exact h.isAvailable

theorem run {α : Type} (h : world.Passes kind) (procedure : Procedure α) :
    (world.run procedure).2.Passes kind :=
  Dialogue.run_keeps (fun after => World.Passes after kind)
    (fun call _ h => h.answer call) procedure h

end Passes

/-! ## Which calls fail now -/

/-- Whether calls of a kind are made to fail now. -/
def fails (world : World) (kind : CallKind) : Bool :=
  match world.faults kind with
  | some ⟨0, _⟩ => true
  | _ => false

/-- Whether cache calls of a kind are answered now: none is made to fail and the cache
answers. -/
def answersCache (world : World) (kind : CallKind) : Bool :=
  world.cache.isAvailable && !world.fails kind

/-- A call is counted off for its own kind only. -/
theorem strike_cases (world : World) (kind : CallKind) :
    (world.fails kind = true ∧ ∃ cause, world.strike kind = (some cause, world)) ∨
      (world.fails kind = false ∧ ∃ faults, (∀ other, other ≠ kind →
        faults other = world.faults other) ∧
        world.strike kind = (none, { world with faults })) := by
  unfold fails strike
  rcases hfault : world.faults kind with _ | ⟨passes, cause⟩
  · exact Or.inr ⟨rfl, world.faults, fun _ _ => rfl, rfl⟩
  · cases passes with
    | zero => exact Or.inl ⟨rfl, cause, rfl⟩
    | succ passes => exact Or.inr ⟨rfl, _, fun other hne => if_neg hne, rfl⟩

theorem fails_congr {world other : World} {kind : CallKind}
    (h : other.faults kind = world.faults kind) : other.fails kind = world.fails kind := by
  rw [fails, fails, h]

theorem answersCache_congr {world other : World} {kind : CallKind}
    (hcache : other.cache = world.cache) (h : other.faults kind = world.faults kind) :
    other.answersCache kind = world.answersCache kind := by
  rw [answersCache, answersCache, hcache, fails_congr h]

/-! ## The whole effect of a call -/

/-- **A store call fails if its kind is made to fail now, and else does what the store says**; it is
noted either way, and nothing else changes but how often calls of its kind may still pass. -/
theorem run_store_cases (world : World) (call : StoreCall) :
    ∃ faults : CallKind → Option Fault,
      (∀ other, other ≠ call.kind → faults other = world.faults other) ∧
      ((world.fails call.kind = true ∧ ∃ e, world.run (Procedure.store call) =
          (.finished (.error e), { world.noted (.store call) with faults })) ∨
        (world.fails call.kind = false ∧ world.run (Procedure.store call) =
          (.finished (.ok (world.store.answer call).1),
            { world.noted (.store call) with faults, store := (world.store.answer call).2 }))) := by
  rw [run, run_store]
  rcases (world.noted (.store call)).strike_cases call.kind with
    ⟨hfails, cause, hstrike⟩ | ⟨hfails, faults, hfaults, hstrike⟩
  · refine ⟨world.faults, fun _ _ => rfl, Or.inl ⟨hfails, cause.storeError, ?_⟩⟩
    simp only [World.answer, World.answerStore, hstrike]
    rfl
  · refine ⟨faults, hfaults, Or.inr ⟨hfails, ?_⟩⟩
    simp only [World.answer, World.answerStore, hstrike]
    rfl

/-- **A cache call fails if the cache does not answer its kind now, and else does what the cache
says.** -/
theorem run_cache_cases (world : World) (call : CacheCall) :
    ∃ faults : CallKind → Option Fault,
      (∀ other, other ≠ call.kind → faults other = world.faults other) ∧
      ((world.answersCache call.kind = false ∧ ∃ e, world.run (Procedure.cache call) =
          (.finished (.error e), { world.noted (.cache call) with faults })) ∨
        (world.answersCache call.kind = true ∧ world.run (Procedure.cache call) =
          (((world.cache.perform world.clock call).1.elim .aborted .finished),
            { world.noted (.cache call) with
              faults, cache := (world.cache.perform world.clock call).2 }))) := by
  rw [run, run_cache]
  rcases (world.noted (.cache call)).strike_cases call.kind with
    ⟨hfails, cause, hstrike⟩ | ⟨hfails, faults, hfaults, hstrike⟩
  · replace hfails : world.fails call.kind = true := hfails
    refine ⟨world.faults, fun _ _ => rfl, Or.inl ⟨?_, cause.cacheError, ?_⟩⟩
    · rw [answersCache, hfails, Bool.not_true, Bool.and_false]
    · simp only [World.answer, World.answerCache, hstrike]
      rfl
  · replace hfails : world.fails call.kind = false := hfails
    refine ⟨faults, hfaults, ?_⟩
    simp only [World.answer, World.answerCache, hstrike]
    cases havailable : world.cache.isAvailable with
    | false =>
      refine Or.inl ⟨by rw [answersCache, havailable, Bool.false_and], .unavailable, ?_⟩
      simp only [MemoryCache.answer, noted, havailable]
      rfl
    | true =>
      refine Or.inr ⟨by rw [answersCache, havailable, hfails]; rfl, ?_⟩
      simp only [MemoryCache.answer, noted, havailable, if_true]
      rcases world.cache.perform world.clock call with ⟨_ | answer, cache⟩
      · rfl
      · rfl

/-- **Keys are removed**, or the cache does not answer now. -/
theorem run_remove_cases (world : World) (keys : List String) :
    ∃ result after, world.run (Procedure.cache (.remove keys)) = (.finished result, after) ∧
      after.clock = world.clock ∧ after.store = world.store ∧
      ((world.answersCache .cacheRemove = false ∧ (∃ e, result = .error e) ∧
          after.entry = world.entry) ∨
        (world.answersCache .cacheRemove = true ∧ result = .ok () ∧
          ∀ key, after.entry key = if key ∈ keys then none else world.entry key)) := by
  obtain ⟨entries, hperform, hheld⟩ := world.cache.perform_remove world.clock keys
  obtain ⟨faults, -, ⟨hanswers, e, hrun⟩ | ⟨hanswers, hrun⟩⟩ :=
    world.run_cache_cases (.remove keys)
  · exact ⟨_, _, hrun, rfl, rfl, Or.inl ⟨hanswers, ⟨e, rfl⟩, rfl⟩⟩
  · rw [hperform] at hrun
    exact ⟨_, _, hrun, rfl, rfl, Or.inr ⟨hanswers, rfl, hheld⟩⟩

theorem run_ask_cache {α : Type} {world after : World} {call : CacheCall}
    {answer : Except CacheError call.Result}
    (h : world.run (Procedure.cache call) = (.finished answer, after))
    (next : Except CacheError call.Result → Procedure α) :
    world.run (.ask (.cache call) next) = after.run (next answer) :=
  run_bind h next

end World
end AccountAccess
