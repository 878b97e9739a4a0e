import AccountAccess.Proofs.Service.Effects

/-!
# Readings

A reading leaves clock, cache and store as they are, whatever it is answered and whether or not it
fails: it spares them.  All that can change is which snapshots are kept and how often an account has
been asked for.

What a single reading is answered with depends on whether it fails now: `fails` says so of a
kind of calls, and a reading that does not fail is answered with what stands there.

What a reading depends on is seen by changing what stands there: `adding` adds one member to one
set, and a question about other keys or other members cannot tell.

## Main definitions and results

* `Spares`: neither the clock nor the cache nor any table of the store has changed.
* `run_cache_of_perform`: a cache call that leaves the table alone.
* `Asked`, `run_account_cases`: the question for an account, and that nothing else happens.
* `adding`, `mem_membersAt_adding`: one member more, and that nothing else becomes one.
-/

namespace AccountAccess

namespace World

variable {world before between after : World}

/-! ## Cache and store are spared -/

/-- Neither the clock nor the cache nor any table of the store has changed. -/
structure Spares (before after : World) : Prop where
  clock : after.clock = before.clock
  cache : after.cache = before.cache
  store : after.store = { before.store with accountReads := after.store.accountReads }

namespace Spares

protected theorem refl (world : World) : Spares world world :=
  ⟨rfl, rfl, rfl⟩

protected theorem trans (h : Spares before between) (h' : Spares between after) :
    Spares before after :=
  ⟨h'.clock.trans h.clock, h'.cache.trans h.cache, by rw [h'.store, h.store]⟩

theorem entry (h : Spares before after) : after.entry = before.entry := by
  funext key
  rw [World.entry, World.entry, h.cache]

end Spares

/-! ## The answer to a reading -/

/-- **A cache call that leaves the table alone** is answered with what it finds, or fails;
apart from the note and the count of failures nothing changes. -/
theorem run_cache_of_perform {call : CacheCall} {found : call.Result}
    (h : world.cache.perform world.clock call = (some (.ok found), world.cache)) :
    ∃ (result : Except CacheError call.Result) (faults : CallKind → Option Fault),
      (∀ other, other ≠ call.kind → faults other = world.faults other) ∧
      world.run (Procedure.cache call) =
        (.finished result, { world.noted (.cache call) with faults }) ∧
      ((world.answersCache call.kind = true ∧ result = .ok found) ∨
        (world.answersCache call.kind = false ∧ ∃ e, result = .error e)) := by
  obtain ⟨faults, hfaults, ⟨hanswers, e, hrun⟩ | ⟨hanswers, hrun⟩⟩ := world.run_cache_cases call
  · exact ⟨_, faults, hfaults, hrun, Or.inr ⟨hanswers, e, rfl⟩⟩
  · rw [h] at hrun
    exact ⟨_, faults, hfaults, hrun, Or.inl ⟨hanswers, rfl⟩⟩

/-- The store has been asked for a row, and nothing else has happened. -/
structure Asked (before after : World) : Prop extends Spares before after where
  snapshots : after.snapshots = before.snapshots
  wall : after.wall = before.wall
  supply : after.supply = before.supply
  faults : ∀ kind, kind ≠ .storeAccount → after.faults kind = before.faults kind

/-- **The question for an account** is answered with the row that stands there, or fails. -/
theorem run_account_cases (world : World) (id : Int64) :
    ∃ (result : Except StoreError (Option Account)) (after : World),
      world.run (Procedure.store (.account id)) = (.finished result, after) ∧
      Asked world after ∧
      ((world.fails .storeAccount = true ∧ ∃ e, result = .error e) ∨
        (world.fails .storeAccount = false ∧ result = .ok (world.store.account? id))) := by
  obtain ⟨faults, hfaults, ⟨hfails, e, hrun⟩ | ⟨hfails, hrun⟩⟩ :=
    world.run_store_cases (.account id)
  · exact ⟨_, _, hrun, ⟨⟨rfl, rfl, rfl⟩, rfl, rfl, rfl, hfaults⟩, Or.inl ⟨hfails, e, rfl⟩⟩
  · exact ⟨_, _, hrun, ⟨⟨rfl, rfl, rfl⟩, rfl, rfl, rfl, hfaults⟩, Or.inr ⟨hfails, rfl⟩⟩

/-! ## One member more -/

/-- The surroundings in which a text is added to the set at a key. -/
def adding (world : World) (key member : String) : World :=
  { world with cache := (world.cache.perform world.clock (.write [.addMembers key [member]])).2 }

@[simp] theorem clock_adding (world : World) (key member : String) :
    (world.adding key member).clock = world.clock := rfl

@[simp] theorem answersCache_adding (world : World) (key member : String) (kind : CallKind) :
    (world.adding key member).answersCache kind = world.answersCache kind := by
  rw [answersCache, adding, MemoryCache.isAvailable_perform]
  rfl

theorem live?_adding {key other : String} (h : other ≠ key) (world : World) (member : String) :
    (world.adding key member).cache.entries.live? world.clock other =
      world.cache.entries.live? world.clock other := by
  refine CacheTable.live?_congr (world.cache.getElem?_perform world.clock _ ?_)
  simpa [CacheCall.keys, CacheWrite.key] using h

theorem reads_adding {key other : String} (h : other ≠ key) (world : World) (member : String) :
    (world.adding key member).reads other = world.reads other := by
  rw [reads, reads, MemoryCache.textAt, MemoryCache.textAt, clock_adding, live?_adding h]

/-- **What is added is a member there**, and nothing else becomes or ceases to be one. -/
theorem mem_membersAt_adding (world : World) (key member : String) {other text : String} :
    text ∈ (world.adding key member).cache.membersAt world.clock other ↔
      other = key ∧ text = member ∨ text ∈ world.cache.membersAt world.clock other := by
  by_cases hother : other = key
  · subst hother
    rw [adding, MemoryCache.mem_membersAt_addMembers, List.mem_singleton]
    simp
  · rw [MemoryCache.membersAt, MemoryCache.membersAt, live?_adding hother]
    simp [hother]

/-- Some member has a property exactly if some had it before or the added one has it. -/
theorem exists_mem_membersAt_adding (world : World) (key member : String) {other : String}
    {P : String → Prop} :
    (∃ text ∈ (world.adding key member).cache.membersAt world.clock other, P text) ↔
      (∃ text ∈ world.cache.membersAt world.clock other, P text) ∨ other = key ∧ P member := by
  constructor
  · rintro ⟨text, hmem, hP⟩
    rcases (mem_membersAt_adding world key member).1 hmem with ⟨hkey, rfl⟩ | hmem
    · exact Or.inr ⟨hkey, hP⟩
    · exact Or.inl ⟨text, hmem, hP⟩
  · rintro (⟨text, hmem, hP⟩ | ⟨hkey, hP⟩)
    · exact ⟨text, (mem_membersAt_adding world key member).2 (Or.inr hmem), hP⟩
    · exact ⟨member, (mem_membersAt_adding world key member).2 (Or.inl ⟨hkey, rfl⟩), hP⟩

end World
end AccountAccess
