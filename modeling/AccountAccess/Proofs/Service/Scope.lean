import AccountAccess.Proofs.Service.Calm

/-!
# What a procedure can come to do

A procedure is a tree, so it can be asked which calls stand in it at all, whatever the
answers: `Every` says that all calls of a dialogue are of one kind and all its results of
another.  What no call of that kind changes, no run of the dialogue changes, in whichever
surroundings; failing calls need not be looked at one by one.

The same view serves tasks that take turns, since what is left of a dialogue after an answer
is a part of its tree.

## Main results

* `Every`, `Every.bind`: the calls and the results of a dialogue, and of dialogues in a row.
* `Every.run`, `Every.keeps`: what every call keeps, a run keeps.
* `run_keeps`: what every call at all keeps, every run keeps.
* `answer_cache_world`, `answer_store_world`: what a call changes, struck or not.
* `entry_answer`: a call that does not name a key leaves its entry alone.
-/

namespace AccountAccess

namespace Dialogue

variable {I : Interface} {α β σ : Type}

/-! ## The calls and the results of a dialogue -/

/-- Every call in a dialogue is of one kind, and every result of another. -/
def Every (P : I.Call → Prop) (Q : α → Prop) : Dialogue I α → Prop
  | .done a => Q a
  | .abort => True
  | .ask call next => P call ∧ ∀ answer, (next answer).Every P Q

variable {P P' : I.Call → Prop} {Q Q' : α → Prop} {R : β → Prop}

@[simp] theorem every_done {a : α} : (Dialogue.done a : Dialogue I α).Every P Q ↔ Q a := Iff.rfl

theorem Every.mono {d : Dialogue I α} (h : d.Every P Q) (hP : ∀ call, P call → P' call)
    (hQ : ∀ a, Q a → Q' a) : d.Every P' Q' := by
  induction d with
  | done a => exact hQ a h
  | abort => trivial
  | ask call next ih => exact ⟨hP call h.1, fun answer => ih answer (h.2 answer)⟩

theorem Every.bind {d : Dialogue I α} {f : α → Dialogue I β} (h : d.Every P Q)
    (hf : ∀ a, Q a → (f a).Every P R) : (d >>= f).Every P R := by
  induction d with
  | done a => exact hf a h
  | abort => trivial
  | ask call next ih => exact ⟨h.1, fun answer => ih answer (h.2 answer)⟩

/-- **What every call keeps, a run keeps**, and its result is one of those in the tree. -/
theorem Every.run {handler : Handler I σ} {inv : σ → Prop}
    (hkeep : ∀ call s, P call → inv s → inv (handler call s).2) {d : Dialogue I α}
    (h : d.Every P Q) {s : σ} (hs : inv s) :
    inv (d.run handler s).2 ∧ ∀ a, (d.run handler s).1 = .finished a → Q a := by
  induction d generalizing s with
  | done a =>
    refine ⟨hs, fun b hb => ?_⟩
    rw [← Outcome.finished.inj hb]
    exact h
  | abort => exact ⟨hs, fun a ha => absurd ha (by simp)⟩
  | ask call next ih =>
    have hnext := hkeep call s h.1 hs
    rw [Dialogue.run]
    rcases hanswer : handler call s with ⟨answer | _, s'⟩
    · rw [hanswer] at hnext
      exact ih answer (h.2 answer) hnext
    · rw [hanswer] at hnext
      exact ⟨hnext, fun a ha => absurd ha (by simp)⟩

theorem Every.keeps {d : Dialogue I α} (h : d.Every P Q) (inv : σ → Prop) {handler : Handler I σ}
    (hkeep : ∀ call s, P call → inv s → inv (handler call s).2) {s : σ} (hs : inv s) :
    inv (d.run handler s).2 :=
  (h.run hkeep hs).1

theorem Every.result {d : Dialogue I α} (h : d.Every P Q) {handler : Handler I σ} {s : σ} {a : α}
    (ha : (d.run handler s).1 = .finished a) : Q a :=
  (h.run (fun _ _ _ (hs : True) => hs) trivial).2 a ha

/-- **What every call keeps at all, every run keeps.** -/
theorem run_keeps (inv : σ → Prop) {handler : Handler I σ}
    (hkeep : ∀ call s, inv s → inv (handler call s).2) (d : Dialogue I α) {s : σ} (hs : inv s) :
    inv (d.run handler s).2 := by
  have hany : d.Every (fun _ => True) fun _ => True := by
    induction d with
    | done a => trivial
    | abort => trivial
    | ask call next ih => exact ⟨trivial, ih⟩
  exact hany.keeps inv (fun call s _ => hkeep call s) hs

/-- The result of a dialogue that is done. -/
def result? : Dialogue I α → Option α
  | .done a => some a
  | _ => none

theorem result?_eq_some_iff {d : Dialogue I α} {a : α} : d.result? = some a ↔ d = .done a := by
  cases d with
  | done b => simp [result?]
  | abort => simp [result?]
  | ask call next => simp [result?]

end Dialogue

namespace Procedure

variable {P : ServiceCall → Prop}

@[simp] theorem every_store {call : StoreCall} {Q : Except StoreError call.Result → Prop} :
    (Procedure.store call).Every P Q ↔ P (.store call) ∧ ∀ answer, Q answer := Iff.rfl

@[simp] theorem every_now {Q : Timestamp → Prop} :
    Procedure.now.Every P Q ↔ P .now ∧ ∀ answer, Q answer := Iff.rfl

@[simp] theorem every_random {Q : RandomBytes → Prop} :
    Procedure.random.Every P Q ↔ P .random ∧ ∀ answer, Q answer := Iff.rfl

end Procedure

/-- The keys of the cache that a call is about. -/
def ServiceCall.keys : ServiceCall → List String
  | cache call => call.keys
  | _ => []

/-! ## What a call changes -/

namespace World

variable {world : World}

theorem exists_faults_of_strike (world : World) (kind : CallKind) :
    ∃ faults, (world.strike kind).2 = { world with faults } := by
  rw [strike]
  split
  · exact ⟨_, rfl⟩
  · exact ⟨_, rfl⟩
  · exact ⟨_, rfl⟩

/-- A cache call is noted and counted off, and changes the cache as the cache says or not at
all. -/
theorem answer_cache_world (world : World) (call : CacheCall) :
    ∃ faults cache, (World.answer (.cache call) world).2 =
        { world.noted (.cache call) with faults, cache } ∧
      (cache = world.cache ∨ cache = (world.cache.perform world.clock call).2) := by
  obtain ⟨faults, hfaults⟩ := exists_faults_of_strike (world.noted (.cache call)) call.kind
  rcases hstrike : (world.noted (.cache call)).strike call.kind with ⟨cause, struck⟩
  rw [hstrike] at hfaults
  replace hfaults : struck = { world.noted (.cache call) with faults } := hfaults
  subst hfaults
  simp only [World.answer, World.answerCache, hstrike]
  cases cause with
  | some cause => exact ⟨faults, world.cache, rfl, Or.inl rfl⟩
  | none =>
    rw [show ({ world.noted (.cache call) with faults } : World).cache = world.cache from rfl,
      show ({ world.noted (.cache call) with faults } : World).clock = world.clock from rfl]
    by_cases havailable : world.cache.isAvailable = true
    · simp only [MemoryCache.answer, if_pos havailable]
      rcases world.cache.perform world.clock call with ⟨answer | _, cache⟩
      · exact ⟨faults, cache, rfl, Or.inr rfl⟩
      · exact ⟨faults, cache, rfl, Or.inr rfl⟩
    · simp only [MemoryCache.answer, if_neg havailable]
      exact ⟨faults, world.cache, rfl, Or.inl rfl⟩

/-- A store call is noted and counted off, and changes the store as the store says or not at
all. -/
theorem answer_store_world (world : World) (call : StoreCall) :
    ∃ faults store, (World.answer (.store call) world).2 =
        { world.noted (.store call) with faults, store } ∧
      (store = world.store ∨ store = (world.store.answer call).2) := by
  obtain ⟨faults, hfaults⟩ := exists_faults_of_strike (world.noted (.store call)) call.kind
  rcases hstrike : (world.noted (.store call)).strike call.kind with ⟨cause, struck⟩
  rw [hstrike] at hfaults
  replace hfaults : struck = { world.noted (.store call) with faults } := hfaults
  subst hfaults
  simp only [World.answer, World.answerStore, hstrike]
  cases cause with
  | some cause => exact ⟨faults, world.store, rfl, Or.inl rfl⟩
  | none => exact ⟨faults, (world.store.answer call).2, rfl, Or.inr rfl⟩

@[simp] theorem store_answer_cache (world : World) (call : CacheCall) :
    (World.answer (.cache call) world).2.store = world.store := by
  obtain ⟨faults, cache, hworld, -⟩ := answer_cache_world world call
  rw [hworld]
  rfl

@[simp] theorem cache_answer_store (world : World) (call : StoreCall) :
    (World.answer (.store call) world).2.cache = world.cache := by
  obtain ⟨faults, store, hworld, -⟩ := answer_store_world world call
  rw [hworld]
  rfl

/-- A call that does not name a key leaves its entry alone. -/
theorem entry_answer (world : World) (call : ServiceCall) {key : String} (hkey : key ∉ call.keys) :
    (World.answer call world).2.entry key = world.entry key := by
  cases call with
  | cache call =>
    obtain ⟨faults, cache, hworld, rfl | rfl⟩ := answer_cache_world world call
    · rw [hworld]
      rfl
    · rw [hworld]
      exact MemoryCache.getElem?_perform _ _ _ hkey
  | store call => rw [entry, entry, cache_answer_store]
  | _ => rfl

end World
end AccountAccess
