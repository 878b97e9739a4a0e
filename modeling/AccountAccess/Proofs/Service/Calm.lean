import AccountAccess.Proofs.Cache.Table
import AccountAccess.Service.InProcess
import Mathlib.Logic.Function.Basic

/-!
# Calm surroundings

Surroundings are *calm* when no call is made to fail and the cache answers.  In calm
surroundings each cache call has one effect on the table, and this file says which, for
the calls that sessions consist of.

Proofs look at the surroundings through two views: `entry`, which shows what the table
holds at a key, expired or not, and `reads`, which shows what a reading answers now.
Entries are compared across time, so invariants speak of entries; what the service sees
are readings.

## Main definitions and results

* `Calm`: no call is made to fail and the cache answers.
* `Alters`: the surroundings are still calm, no time has passed, and the table differs in one place
  only.
* `reads_eq_ite`: a text is read until its deadline.
* `live_cases`: what is live at a key, seen with the two views.
* `answer_get`, `answer_set`, `answer_remove_one`, `answer_remove_two`, `answer_swap`: the effect of
  each call.  A time to live that the clock cannot show breaks the call off
  (`answer_set_of_overflow`, `answer_swap_of_overflow`).
-/

namespace AccountAccess

instance decidableEqExcept {ε α : Type} [DecidableEq ε] [DecidableEq α] :
    DecidableEq (Except ε α)
  | .ok a, .ok b => decidable_of_iff (a = b) ⟨congrArg _, Except.ok.inj⟩
  | .error a, .error b => decidable_of_iff (a = b) ⟨congrArg _, Except.error.inj⟩
  | .ok _, .error _ => isFalse nofun
  | .error _, .ok _ => isFalse nofun

namespace World

variable {world : World}

/-! ## Entries, readings and calm surroundings -/

/-- What the table holds at a key, expired or not. -/
def entry (world : World) (key : String) : Option CacheEntry :=
  world.cache.entries[key]?

/-- The text that a reading of a key answers with. -/
def reads (world : World) (key : String) : Option String :=
  world.cache.textAt world.clock key

/-- No call is made to fail and the cache answers. -/
structure Calm (world : World) : Prop where
  no_fault : world.faults = fun _ => none
  available : world.cache.isAvailable = true

/-- The surroundings after a cache call that leaves a table. -/
def stored (world : World) (call : CacheCall) (entries : CacheTable) : World :=
  { world.noted (.cache call) with cache := { world.cache with entries } }

theorem run_cache (world : World) (call : CacheCall) :
    Dialogue.run World.answer (Procedure.cache call) world = World.answer (.cache call) world := by
  rw [Procedure.cache, Dialogue.call, Dialogue.run]
  rcases World.answer (.cache call) world with ⟨answer | _, after⟩
  · rfl
  · rfl

theorem run_store (world : World) (call : StoreCall) :
    Dialogue.run World.answer (Procedure.store call) world = World.answer (.store call) world := by
  rw [Procedure.store, Dialogue.call, Dialogue.run]
  rcases World.answer (.store call) world with ⟨answer | _, after⟩
  · rfl
  · rfl

/-! ## The two views -/

@[simp] theorem clock_advance (world : World) (milliseconds : Nat) :
    (world.advance milliseconds).clock = world.clock + milliseconds := rfl

theorem reads_congr {other : World} {key : String} (hclock : other.clock = world.clock)
    (hentry : other.entry key = world.entry key) : other.reads key = world.reads key := by
  have hentry : other.cache.entries[key]? = world.cache.entries[key]? := hentry
  rw [reads, reads, MemoryCache.textAt, MemoryCache.textAt, CacheTable.live?, CacheTable.live?,
    hclock, hentry]

theorem reads_eq_none {key : String} (h : world.entry key = none) : world.reads key = none := by
  rw [reads, MemoryCache.textAt, CacheTable.live?_eq_none h]

/-- What is read at an entry was read there before, since time only takes entries away. -/
theorem reads_of_later {later : World} {key value : String}
    (hentry : later.entry key = world.entry key) (hclock : world.clock ≤ later.clock)
    (h : later.reads key = some value) : world.reads key = some value := by
  have hentries : later.cache.entries[key]? = world.cache.entries[key]? := hentry
  rw [reads, MemoryCache.textAt, CacheTable.live?, hentries] at h
  rw [reads, MemoryCache.textAt, CacheTable.live?]
  cases he : world.cache.entries[key]? with
  | none =>
    rw [he] at h
    exact absurd h (by simp)
  | some e =>
    rw [he] at h
    by_cases hlive : e.isLive later.clock = true
    · have hearlier : e.isLive world.clock = true := by
        rw [CacheEntry.isLive] at hlive ⊢
        split at hlive
        · simp only [decide_eq_true_eq] at hlive ⊢
          exact Nat.lt_of_le_of_lt hclock hlive
        · rfl
      rw [Option.filter_some, if_pos hlive] at h
      rw [Option.filter_some, if_pos hearlier]
      exact h
    · rw [Option.filter_some, if_neg hlive] at h
      exact absurd h (by simp)

/-- **A text is read until its deadline.** -/
theorem reads_eq_ite {key value : String} {deadline : Nat}
    (h : world.entry key = some (.textUntil value deadline)) :
    world.reads key = if world.clock < deadline then some value else none := by
  rw [reads, MemoryCache.textAt, CacheTable.live?_eq_ite h]
  by_cases hlive : world.clock < deadline
  · rw [if_pos hlive, if_pos hlive]
  · rw [if_neg hlive, if_neg hlive]

theorem reads_eq_some {key value : String} {deadline : Nat}
    (h : world.entry key = some (.textUntil value deadline)) (hlive : world.clock < deadline) :
    world.reads key = some value := by
  rw [reads_eq_ite h, if_pos hlive]

/-- What is live at a key, and what is read there: nothing, a text, or something that a
swap cannot replace. -/
theorem live_cases (world : World) (key : String) :
    (world.cache.entries.live? world.clock key = none ∧ world.reads key = none) ∨
      (∃ v d, world.cache.entries.live? world.clock key = some ⟨.text v, d⟩ ∧
        world.reads key = some v) ∨
      ∃ e, world.cache.entries.live? world.clock key = some e ∧ ∀ v, e.value ≠ .text v := by
  rw [reads, MemoryCache.textAt]
  rcases hlive : world.cache.entries.live? world.clock key with _ | ⟨value, d⟩
  · exact Or.inl ⟨rfl, rfl⟩
  · cases value with
    | text v => exact Or.inr (Or.inl ⟨v, d, rfl, rfl⟩)
    | members set => exact Or.inr (Or.inr ⟨_, rfl, fun v => by simp⟩)
    | counter n => exact Or.inr (Or.inr ⟨_, rfl, fun v => by simp⟩)

/-- Where only texts stand, there is either nothing live to read or a text. -/
theorem live_cases_of_text {key : String}
    (htext : ∀ e, world.entry key = some e → ∃ v d, e = .textUntil v d) :
    (world.cache.entries.live? world.clock key = none ∧ world.reads key = none) ∨
      ∃ v d, world.cache.entries.live? world.clock key = some ⟨.text v, d⟩ ∧
        world.reads key = some v := by
  rcases live_cases world key with hnone | htexts | ⟨e, hlive, hvalue⟩
  · exact Or.inl hnone
  · exact Or.inr htexts
  · obtain ⟨hentry, -⟩ := Option.filter_eq_some_iff.1 hlive
    obtain ⟨v, d, rfl⟩ := htext e hentry
    exact absurd rfl (hvalue v)

/-! ## Calm surroundings stay calm -/

theorem Calm.noted (h : world.Calm) (call : ServiceCall) : (world.noted call).Calm :=
  ⟨h.no_fault, h.available⟩

theorem Calm.advance (h : world.Calm) (milliseconds : Nat) : (world.advance milliseconds).Calm :=
  ⟨h.no_fault, h.available⟩

/-- The surroundings are still calm, no time has passed, and the table differs in one
place only. -/
structure Alters (before : World) (key : String) (e : Option CacheEntry) (after : World) :
    Prop where
  calm : after.Calm
  clock : after.clock = before.clock
  entry_eq : after.entry = Function.update before.entry key e

theorem Alters.entry_self {after : World} {key : String} {e : Option CacheEntry}
    (h : Alters world key e after) : after.entry key = e := by
  rw [h.entry_eq, Function.update_self]

theorem Alters.entry_of_ne {after : World} {key other : String} {e : Option CacheEntry}
    (h : Alters world key e after) (hne : other ≠ key) : after.entry other = world.entry other := by
  rw [h.entry_eq, Function.update_of_ne hne]

theorem alters_insert (h : world.Calm) (call : CacheCall) (key : String) (e : CacheEntry) :
    Alters world key (some e) (world.stored call (world.cache.entries.insert key e)) := by
  refine ⟨⟨h.no_fault, h.available⟩, rfl, ?_⟩
  funext other
  by_cases hne : other = key
  · rw [hne, Function.update_self]
    exact Std.ExtTreeMap.getElem?_insert_self
  · rw [Function.update_of_ne hne]
    exact CacheTable.getElem?_insert_of_ne hne

theorem alters_erase (h : world.Calm) (call : CacheCall) (key : String) :
    Alters world key none (world.stored call (world.cache.entries.erase key)) := by
  refine ⟨⟨h.no_fault, h.available⟩, rfl, ?_⟩
  funext other
  by_cases hne : other = key
  · rw [hne, Function.update_self]
    exact Std.ExtTreeMap.getElem?_erase_self
  · rw [Function.update_of_ne hne]
    exact CacheTable.getElem?_erase_of_ne hne

/-! ## The effect of a call -/

namespace Calm

/-- In calm surroundings a call is answered by the cache. -/
theorem answer_eq (h : world.Calm) (call : CacheCall) :
    World.answer (.cache call) world =
      match world.cache.perform world.clock call with
      | (some answer, cache) => (.finished answer, { world.noted (.cache call) with cache })
      | (none, cache) => (.aborted, { world.noted (.cache call) with cache }) := by
  have hstrike : (world.noted (.cache call)).strike call.kind =
      (none, world.noted (.cache call)) := by
    rw [World.strike, show (world.noted (.cache call)).faults = world.faults from rfl, h.no_fault]
  have hanswer : ∀ now, world.cache.answer now call = world.cache.perform now call :=
    fun now => if_pos h.available
  simp only [World.answer, World.answerCache, hstrike]
  rw [← hanswer]
  rfl

/-- Any call leaves the surroundings calm, the clock as it is, and the keys alone that
it does not name. -/
theorem answer_frame (h : world.Calm) (call : CacheCall) :
    (World.answer (.cache call) world).2.Calm ∧
      (World.answer (.cache call) world).2.clock = world.clock ∧
      ∀ key, key ∉ call.keys →
        (World.answer (.cache call) world).2.entry key = world.entry key := by
  have hentries : ∀ key, key ∉ call.keys → _ :=
    fun _ hkey => world.cache.getElem?_perform world.clock call hkey
  have havailable := world.cache.isAvailable_perform world.clock call
  rw [h.answer_eq]
  split
  all_goals
    rename_i cache hperform
    rw [hperform] at hentries havailable
    exact ⟨⟨h.no_fault, havailable.trans h.available⟩, rfl, hentries⟩

theorem answer_store (h : world.Calm) (call : StoreCall) :
    World.answer (.store call) world = (.finished (.ok (world.store.answer call).1),
      { world.noted (.store call) with store := (world.store.answer call).2 }) := by
  have hstrike : (world.noted (.store call)).strike call.kind =
      (none, world.noted (.store call)) := by
    rw [World.strike, show (world.noted (.store call)).faults = world.faults from rfl, h.no_fault]
  simp only [World.answer, World.answerStore, hstrike]
  rfl

theorem answer (h : world.Calm) (call : ServiceCall) : (World.answer call world).2.Calm := by
  cases call with
  | cache call => exact (h.answer_frame call).1
  | store call =>
    rw [h.answer_store]
    exact ⟨h.no_fault, h.available⟩
  | _ => exact ⟨h.no_fault, h.available⟩

theorem answer_get (h : world.Calm) (key : String) :
    World.answer (.cache (.get key)) world =
      (.finished (.ok (world.reads key)), world.noted (.cache (.get key))) := by
  rw [h.answer_eq]
  rfl

theorem answer_set (h : world.Calm) (key value : String) {ttl : UInt64} {deadline : Nat}
    (hd : expiry? world.clock ttl = some deadline) :
    ∃ after, World.answer (.cache (.set key value ttl)) world = (.finished (.ok ()), after) ∧
      Alters world key (some (.textUntil value deadline)) after := by
  refine ⟨_, ?_, alters_insert h (.set key value ttl) key _⟩
  rw [h.answer_eq]
  simp only [MemoryCache.perform, MemoryCache.writeAll, CacheTable.writeAll, CacheTable.write?,
    hd, Option.map_some]
  rfl

theorem answer_set_of_overflow (h : world.Calm) (key value : String) {ttl : UInt64}
    (hd : expiry? world.clock ttl = none) :
    World.answer (.cache (.set key value ttl)) world =
      (.aborted, world.noted (.cache (.set key value ttl))) := by
  rw [h.answer_eq]
  simp only [MemoryCache.perform, MemoryCache.writeAll, CacheTable.writeAll, CacheTable.write?,
    hd, Option.map_none]
  rfl

theorem answer_remove_one (h : world.Calm) (key : String) :
    ∃ after, World.answer (.cache (.remove [key])) world = (.finished (.ok ()), after) ∧
      Alters world key none after := by
  refine ⟨_, ?_, alters_erase h (.remove [key]) key⟩
  rw [h.answer_eq]
  rfl

/-- Removing two keys is removing one after the other. -/
theorem answer_remove_two (h : world.Calm) (key key' : String) :
    ∃ between after, World.answer (.cache (.remove [key, key'])) world =
        (.finished (.ok ()), after) ∧
      Alters world key none between ∧ Alters between key' none after := by
  have hbetween := alters_erase h (.remove [key, key']) key
  have hafter := alters_erase hbetween.calm (.remove [key, key']) key'
  refine ⟨_, { world.noted (.cache (.remove [key, key'])) with
    cache := { world.cache with entries := (world.cache.entries.erase key).erase key' } }, ?_,
    hbetween, ⟨⟨h.no_fault, h.available⟩, rfl, hafter.entry_eq⟩⟩
  rw [h.answer_eq]
  rfl

/-- **A swap answers with the text that was read, and takes its place.** -/
theorem answer_swap_of_live (h : world.Calm) (key value : String) {ttl : UInt64} {deadline : Nat}
    (hd : expiry? world.clock ttl = some deadline)
    (hlive : (world.cache.entries.live? world.clock key = none ∧ world.reads key = none) ∨
      ∃ v d, world.cache.entries.live? world.clock key = some ⟨.text v, d⟩ ∧
        world.reads key = some v) :
    ∃ after, World.answer (.cache (.swap key value ttl)) world =
        (.finished (.ok (world.reads key)), after) ∧
      Alters world key (some (.textUntil value deadline)) after := by
  refine ⟨_, ?_, alters_insert h (.swap key value ttl) key _⟩
  have hwrite : world.cache.entries.write? world.clock (.setText key value ttl) =
      some (world.cache.entries.insert key (.textUntil value deadline)) := by
    rw [CacheTable.write?, hd, Option.map_some]
  rw [h.answer_eq]
  rcases hlive with ⟨hlive, hreads⟩ | ⟨v, d, hlive, hreads⟩
  · simp only [MemoryCache.perform, hlive, hwrite, hreads]
    rfl
  · simp only [MemoryCache.perform, hlive, hwrite, hreads]
    rfl

theorem answer_swap (h : world.Calm) (key value : String) {ttl : UInt64} {deadline : Nat}
    (hd : expiry? world.clock ttl = some deadline)
    (htext : ∀ e, world.entry key = some e → ∃ v d, e = .textUntil v d) :
    ∃ after, World.answer (.cache (.swap key value ttl)) world =
        (.finished (.ok (world.reads key)), after) ∧
      Alters world key (some (.textUntil value deadline)) after :=
  h.answer_swap_of_live key value hd (live_cases_of_text htext)

/-- A swap anywhere: what is not a text is left in its place. -/
theorem answer_swap_cases (h : world.Calm) (key value : String) {ttl : UInt64} {deadline : Nat}
    (hd : expiry? world.clock ttl = some deadline) :
    World.answer (.cache (.swap key value ttl)) world =
        (.finished (.error .unavailable), world.noted (.cache (.swap key value ttl))) ∨
      ∃ after, World.answer (.cache (.swap key value ttl)) world =
          (.finished (.ok (world.reads key)), after) ∧
        Alters world key (some (.textUntil value deadline)) after := by
  rcases live_cases world key with hnone | htext | ⟨⟨held, d⟩, hlive, hvalue⟩
  · exact Or.inr (h.answer_swap_of_live key value hd (Or.inl hnone))
  · exact Or.inr (h.answer_swap_of_live key value hd (Or.inr htext))
  · refine Or.inl ?_
    rw [h.answer_eq]
    cases held with
    | text v => exact absurd rfl (hvalue v)
    | members set =>
      simp only [MemoryCache.perform, hlive]
      rfl
    | counter n =>
      simp only [MemoryCache.perform, hlive]
      rfl

theorem answer_swap_of_overflow (h : world.Calm) (key value : String) {ttl : UInt64}
    (hd : expiry? world.clock ttl = none)
    (htext : ∀ e, world.entry key = some e → ∃ v d, e = .textUntil v d) :
    World.answer (.cache (.swap key value ttl)) world =
      (.aborted, world.noted (.cache (.swap key value ttl))) := by
  have hwrite : world.cache.entries.write? world.clock (.setText key value ttl) = none := by
    rw [CacheTable.write?, hd, Option.map_none]
  rw [h.answer_eq]
  rcases live_cases_of_text htext with ⟨hlive, -⟩ | ⟨v, d, hlive, -⟩
  · simp only [MemoryCache.perform, hlive, hwrite]
    rfl
  · simp only [MemoryCache.perform, hlive, hwrite]
    rfl

end Calm
end World
end AccountAccess
