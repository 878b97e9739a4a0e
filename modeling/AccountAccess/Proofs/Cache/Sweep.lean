import AccountAccess.Proofs.Cache.Live

/-!
# Expired entries are never seen

Nothing clears the table of entries that have come to their end.  Such an entry stands there until
something takes its place, and each operation leaves it out of account by itself: readings pass
over it, swaps find nothing to give back, sets and counters start afresh where it stands.  So it
could be seen only if one of them forgot to.

Two caches *look alike* at a time if the same entries count in them.  The argument rests on two
facts: whatever is done to caches that look alike has the same answer and leaves them looking
alike, and a cache looks like itself after a sweep.  So it can be swept at any time and as often as
one likes, and no answer will tell.

The first fact has to be shown of the tables and cannot be read off what a call does to the entries
that count: a call that breaks off has no answer, but it may have changed the table by then, and
it has to do so in both caches alike.

## Main results

* `LooksLike`: both caches answer or neither does, and the same entries count in them.
* `swept_looksLike`, `looksLike_erase`: a cache looks as it would without what has expired.
* `LooksLike.perform`: caches that look alike answer a call alike, one lemma for each kind of call.
* `LooksLike.play`, `LooksLike.answers`: the same of an event, and of any run of them, however the
  caches are tended in between.
* `answers_eq_answers_swept`: no run shows what has expired.
-/

namespace AccountAccess

/-! ## Sweeping -/

/-- Whether an entry has come to its end. -/
def CacheEntry.hasExpired (now : Nat) (entry : CacheEntry) : Bool :=
  entry.expiresAt.any (· ≤ now)

theorem CacheEntry.isLive_eq_not (now : Nat) (entry : CacheEntry) :
    entry.isLive now = !entry.hasExpired now := by
  rw [isLive, hasExpired]
  cases entry.expiresAt with
  | none => rfl
  | some at_ =>
    rw [Option.any_some, ← decide_not]
    simp only [Nat.not_le]

namespace MemoryCache

/-- The cache without the entries that have come to their end. -/
def swept (now : Nat) (cache : MemoryCache) : MemoryCache :=
  { cache with entries := cache.entries.filter fun _ entry => !entry.hasExpired now }

variable {cache other : MemoryCache} {now : Nat} {key : String}

/-! ## Caches that look alike -/

/-- Both caches answer or neither does, and the same entries count in them. -/
structure LooksLike (now : Nat) (cache other : MemoryCache) : Prop where
  isAvailable : cache.isAvailable = other.isAvailable
  live : cache.entries.live now = other.entries.live now

namespace LooksLike

protected theorem refl (now : Nat) (cache : MemoryCache) : LooksLike now cache cache :=
  ⟨rfl, rfl⟩

protected theorem symm (h : LooksLike now cache other) : LooksLike now other cache :=
  ⟨h.isAvailable.symm, h.live.symm⟩

protected theorem trans {third : MemoryCache} (h : LooksLike now cache other)
    (h' : LooksLike now other third) : LooksLike now cache third :=
  ⟨h.isAvailable.trans h'.isAvailable, h.live.trans h'.live⟩

theorem live?_eq (h : LooksLike now cache other) (key : String) :
    cache.entries.live? now key = other.entries.live? now key :=
  congrFun h.live key

theorem later (h : LooksLike now cache other) {later : Nat} (hlater : now ≤ later) :
    LooksLike later cache other :=
  ⟨h.isAvailable, by rw [CacheTable.live_later hlater, CacheTable.live_later hlater, h.live]⟩

end LooksLike

/-- A cache looks like itself after a sweep. -/
theorem swept_looksLike (now : Nat) (cache : MemoryCache) :
    LooksLike now (cache.swept now) cache := by
  refine ⟨rfl, ?_⟩
  funext key
  rw [CacheTable.live, CacheTable.live, CacheTable.live?, CacheTable.live?, swept,
    Std.ExtTreeMap.getElem?_filter', Option.filter_filter]
  congr 1
  funext entry
  rw [entry.isLive_eq_not, Bool.and_self]

/-- A cache looks as it would without an entry that has come to its end. -/
theorem looksLike_erase {entry : CacheEntry} (hentry : cache.entries[key]? = some entry)
    (hexpired : entry.hasExpired now = true) :
    LooksLike now { cache with entries := cache.entries.erase key } cache := by
  refine ⟨rfl, ?_⟩
  have hnone : cache.entries.live now key = none := by
    rw [CacheTable.live, CacheTable.live?, hentry, Option.filter_some, entry.isLive_eq_not,
      hexpired]
    rfl
  rw [CacheTable.live_erase, ← hnone, Function.update_eq_self]

end MemoryCache

/-! ## Writes -/

namespace CacheTable

variable {table other : CacheTable} {now : Nat}

/-- A write breaks off in both of two tables or in neither, and the same entries count afterwards
if they did before. -/
theorem live_write?_congr (h : table.live now = other.live now) (write : CacheWrite) :
    (table.write? now write).map (live · now) = (other.write? now write).map (live · now) := by
  cases write with
  | setText key value ttl =>
    rw [write?, write?]
    cases expiry? now ttl with
    | none => rfl
    | some at_ =>
      simp only [Option.map_some]
      rw [live_insert_eq, live_insert_eq, h]
  | remove key =>
    rw [write?, write?, Option.map_some, Option.map_some, live_erase, live_erase, h]
  | addMembers key members =>
    by_cases hnone : members = []
    · rw [write?, write?, if_pos hnone, if_pos hnone, Option.map_some, Option.map_some, h]
    · rw [write?_addMembers table key hnone, write?_addMembers other key hnone, Option.map_some,
        Option.map_some, live_insert_eq, live_insert_eq, h]

/-- **Writes in order** break off at the same one in both of two tables. -/
theorem live_writeAll_congr (h : table.live now = other.live now) (writes : List CacheWrite) :
    (table.writeAll now writes).1 = (other.writeAll now writes).1 ∧
      live (table.writeAll now writes).2 now = live (other.writeAll now writes).2 now := by
  induction writes generalizing table other with
  | nil => exact ⟨rfl, h⟩
  | cons write writes ih =>
    have hwrite := live_write?_congr h write
    rw [writeAll, writeAll]
    cases hafter : table.write? now write with
    | none =>
      rw [hafter] at hwrite
      rw [Option.map_eq_none_iff.1 hwrite.symm]
      exact ⟨rfl, h⟩
    | some after =>
      rw [hafter] at hwrite
      obtain ⟨after', hafter', hlive⟩ := Option.map_eq_some_iff.1 hwrite.symm
      rw [hafter']
      exact ih hlive.symm

end CacheTable

/-! ## Calls -/

namespace MemoryCache

variable {α : Type} {cache other : MemoryCache} {now : Nat}

/-- Two answers are the same, and the caches that gave them look alike. -/
def Alike (now : Nat) (answered answered' : α × MemoryCache) : Prop :=
  answered.1 = answered'.1 ∧ LooksLike now answered.2 answered'.2

namespace LooksLike

variable (h : LooksLike now cache other)
include h

theorem insert (key : String) (entry : CacheEntry) :
    LooksLike now { cache with entries := cache.entries.insert key entry }
      { other with entries := other.entries.insert key entry } :=
  ⟨h.isAvailable, by rw [CacheTable.live_insert_eq, CacheTable.live_insert_eq, h.live]⟩

theorem textAt (key : String) : cache.textAt now key = other.textAt now key := by
  rw [MemoryCache.textAt, MemoryCache.textAt, h.live?_eq]

theorem writeAll (writes : List CacheWrite) :
    Alike now (cache.writeAll now writes) (other.writeAll now writes) := by
  obtain ⟨hfinished, hlive⟩ := CacheTable.live_writeAll_congr h.live writes
  refine ⟨?_, h.isAvailable, hlive⟩
  simp only [MemoryCache.writeAll, hfinished]

theorem swap (key value : String) (ttl : UInt64) :
    Alike now (cache.perform now (.swap key value ttl))
      (other.perform now (.swap key value ttl)) := by
  rw [perform_swap, perform_swap, congrFun h.live key]
  cases givenBack? (other.entries.live now key) with
  | none => exact ⟨rfl, h⟩
  | some previous =>
    simp only [CacheTable.write?]
    cases expiry? now ttl with
    | none => exact ⟨rfl, h⟩
    | some at_ => exact ⟨rfl, h.insert key _⟩

theorem count (key : String) (window : UInt64) :
    Alike now (cache.perform now (.count key window)) (other.perform now (.count key window)) := by
  rw [perform_count_eq, perform_count_eq, congrFun h.live key]
  cases countsFrom? (other.entries.live now key) with
  | none => exact ⟨rfl, h⟩
  | some counter =>
    by_cases hfirst : counter.1 + 1 = 1
    · simp only [if_pos hfirst]
      cases expiry? now window with
      | none => exact ⟨rfl, h.insert key _⟩
      | some deadline => exact ⟨rfl, h.insert key _⟩
    · simp only [if_neg hfirst]
      exact ⟨rfl, h.insert key _⟩

/-- **Caches that look alike answer a call alike.** -/
theorem perform (call : CacheCall) :
    Alike now (cache.perform now call) (other.perform now call) := by
  cases call with
  | get key =>
    refine ⟨?_, h⟩
    rw [MemoryCache.perform, MemoryCache.perform, h.textAt key]
  | set key value ttl => exact h.writeAll [.setText key value ttl]
  | remove keys => exact h.writeAll (keys.map .remove)
  | swap key value ttl => exact h.swap key value ttl
  | anyMember key members =>
    refine ⟨?_, h⟩
    rw [MemoryCache.perform, MemoryCache.perform, h.live?_eq]
  | write writes => exact h.writeAll writes
  | count key window => exact h.count key window

theorem answer (call : CacheCall) :
    Alike now (cache.answer now call) (other.answer now call) := by
  rw [MemoryCache.answer, MemoryCache.answer, h.isAvailable]
  by_cases havailable : other.isAvailable = true
  · rw [if_pos havailable, if_pos havailable]
    exact h.perform call
  · rw [if_neg havailable, if_neg havailable]
    exact ⟨rfl, h⟩

end LooksLike

/-! ## Runs -/

/-- What is done to a cache: it is called, looked into, switched on or off, or time passes. -/
inductive Event where
  | call (call : CacheCall)
  | members (key : String)
  | contains (key : String)
  | switch (isAvailable : Bool)
  | elapse (milliseconds : Nat)
  deriving DecidableEq, Repr

namespace Event

/-- What an event is answered with.  The answer to a call fails to come when the clock ends. -/
abbrev Answer : Event → Type
  | call asked => Option (Except CacheError asked.Result)
  | members _ => List String
  | contains _ => Bool
  | switch _ | elapse _ => Unit

/-- The answer to an event and the cache after it. -/
def play (now : Nat) (cache : MemoryCache) : (event : Event) → event.Answer × MemoryCache
  | call asked => cache.answer now asked
  | members key => (cache.membersAt now key, cache)
  | contains key => (cache.containsKey now key, cache)
  | switch isAvailable => ((), { cache with isAvailable })
  | elapse _ => ((), cache)

/-- The time after an event. -/
def later (now : Nat) : Event → Nat
  | elapse milliseconds => now + milliseconds
  | _ => now

theorem le_later (now : Nat) (event : Event) : now ≤ event.later now := by
  cases event with
  | elapse milliseconds => exact Nat.le_add_right now milliseconds
  | _ => exact Nat.le_refl now

end Event

/-- **Caches that look alike answer an event alike.** -/
theorem LooksLike.play (h : LooksLike now cache other) (event : Event) :
    Alike now (event.play now cache) (event.play now other) := by
  cases event with
  | call call => exact h.answer call
  | members key =>
    refine ⟨?_, h⟩
    rw [Event.play, Event.play, membersAt, membersAt, h.live?_eq]
  | contains key =>
    refine ⟨?_, h⟩
    rw [Event.play, Event.play, containsKey, containsKey, h.live?_eq]
  | switch isAvailable => exact ⟨rfl, rfl, h.live⟩
  | elapse milliseconds => exact ⟨rfl, h⟩

/-- The answers to the events of a run.  Before each of them the cache is tended. -/
def answers (tend : Nat → MemoryCache → MemoryCache) :
    Nat → MemoryCache → List Event → List ((event : Event) × event.Answer)
  | _, _, [] => []
  | now, cache, event :: events =>
    ⟨event, (event.play now (tend now cache)).1⟩ ::
      answers tend (event.later now) (event.play now (tend now cache)).2 events

/-- A cache that is not tended. -/
def untended (_ : Nat) (cache : MemoryCache) : MemoryCache :=
  cache

/-- **Caches that look alike answer every run alike**, however they are tended, as long as tending
leaves them looking as they did. -/
theorem LooksLike.answers {tend tend' : Nat → MemoryCache → MemoryCache}
    (htend : ∀ now cache, LooksLike now (tend now cache) cache)
    (htend' : ∀ now cache, LooksLike now (tend' now cache) cache) (h : LooksLike now cache other)
    (events : List Event) :
    MemoryCache.answers tend now cache events = MemoryCache.answers tend' now other events := by
  induction events generalizing now cache other with
  | nil => rfl
  | cons event events ih =>
    have htended : LooksLike now (tend now cache) (tend' now other) :=
      ((htend now cache).trans h).trans (htend' now other).symm
    obtain ⟨hanswer, hafter⟩ := htended.play event
    rw [MemoryCache.answers, MemoryCache.answers, hanswer, ih (hafter.later (event.le_later now))]

/-- **Expired entries are never seen.**  Take any cache and any run of calls, looks into the
cache, switchings and passing time.  Each answer is the one that the cache would give if it were
swept before each event; and the answers are those of the cache without any one of the entries
that have come to their end, whatever stands in it and whatever is done at its key. -/
theorem answers_eq_answers_swept (now : Nat) (cache : MemoryCache) (events : List Event) :
    answers untended now cache events = answers swept now cache events ∧
      ∀ key entry, cache.entries[key]? = some entry → entry.hasExpired now = true →
        answers untended now { cache with entries := cache.entries.erase key } events =
          answers untended now cache events := by
  have huntended : ∀ now cache, LooksLike now (untended now cache) cache := LooksLike.refl
  refine ⟨(LooksLike.refl now cache).answers huntended swept_looksLike events, ?_⟩
  intro key entry hentry hexpired
  exact (looksLike_erase hentry hexpired).answers huntended huntended events

/-- A set that came to its end a second after the clock began. -/
def outlivedSet : CacheEntry :=
  ⟨.members ((∅ : Std.ExtTreeSet String).insertMany ["read"]), some 1000⟩

/-- A cache in which nothing has taken its place. -/
def outlived : MemoryCache :=
  { entries := (∅ : CacheTable).insert "codes" outlivedSet }

/-- A run in which the key of the set holds a counter, another set and a text, each of which comes
to its end. -/
def comingAndGoing : List Event :=
  [.contains "codes", .call (.count "codes" 1), .call (.count "codes" 1), .elapse 1000,
    .call (.write [.addMembers "codes" ["list"], .addMembers "codes" []]), .members "codes",
    .call (.set "codes" "text" 1), .call (.anyMember "codes" ["read", "list"]), .switch false,
    .call (.swap "codes" "refused" 1), .switch true, .elapse 1000,
    .call (.swap "codes" "again" 1), .call (.remove ["codes"]), .call (.get "codes")]

/-- The run does not show that the first set was ever there. -/
theorem answers_eq_answers_swept_outlived :
    answers untended 1000 outlived comingAndGoing = answers swept 1000 outlived comingAndGoing ∧
      outlived.entries["codes"]? = some outlivedSet ∧ outlivedSet.hasExpired 1000 = true ∧
      answers untended 1000 { outlived with entries := outlived.entries.erase "codes" }
          comingAndGoing =
        answers untended 1000 outlived comingAndGoing := by
  have hentry : outlived.entries["codes"]? = some outlivedSet :=
    Std.ExtTreeMap.getElem?_insert_self
  have hexpired : outlivedSet.hasExpired 1000 = true := by decide
  obtain ⟨hswept, herased⟩ := answers_eq_answers_swept 1000 outlived comingAndGoing
  exact ⟨hswept, hentry, hexpired, herased "codes" outlivedSet hentry hexpired⟩

end MemoryCache
end AccountAccess
