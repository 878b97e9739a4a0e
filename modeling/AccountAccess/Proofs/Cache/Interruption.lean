import AccountAccess.Proofs.Cache.Live
import Mathlib.Data.List.TakeWhile

/-!
# Calls that break off

A call that is refused changes nothing.  A call can also break off: it is to keep something for so
long that the clock ends before, and then it has no answer at all.  What it had done by then stays
done.

For most calls that is nothing, because the expiry time is the first thing that they work out.
Two kinds of calls work it out later.  Writes in order find out at the one whose expiry time is
beyond the clock, and those in front of it have taken effect.  A count finds out when the counter
stands at one already, and leaves it without an expiry time.

To say so exactly, all entries of the table are looked at, those that have come to their end
included.  What one write makes of them is said without the table, and the writes in front of the
first one that overruns the clock are those that take effect.

## Definitions

* `CacheWrite.Overruns`: a write is to keep something for longer than the clock runs.
* `carriedOutAll`, `inTime`: what writes make of the entries, and which of them come to that.
* `SwapEnds`, `CountEnds`: how a swap and a count can end, one constructor for each way.
* `RefusesCleanly`, `BreaksOffCleanly`, `LeavesTraces`: what a call that is not answered leaves.

## Main results

* `held_writeAll`: writes in order are carried out up to the first one that overruns the clock.
* `countEnds`: a count that makes its counter stand at one breaks off after it has done so.
* `refusesCleanly`: every refusal leaves the cache as it was.
* `breaksOffCleanly_iff`: a call that breaks off leaves traces exactly in the two cases.
* `all_or_nothing_iff` puts these together; `traces_of_endless` shows that both cases arise.
-/

namespace AccountAccess

/-! ## Times beyond the clock -/

/-- The clock ends before a time to live does. -/
def Overruns (now : Nat) (ttl : UInt64) : Prop :=
  clockEnd ≤ now / 1000 + ttl.toNat

instance (now : Nat) (ttl : UInt64) : Decidable (Overruns now ttl) :=
  inferInstanceAs (Decidable (clockEnd ≤ now / 1000 + ttl.toNat))

theorem Overruns.expiry?_eq {now : Nat} {ttl : UInt64} (h : Overruns now ttl) :
    expiry? now ttl = none :=
  expiry?_eq_none h

theorem expiry?_of_not_overruns {now : Nat} {ttl : UInt64} (h : ¬Overruns now ttl) :
    expiry? now ttl = some (now + 1000 * ttl.toNat) :=
  expiry?_eq_some (Nat.not_le.1 h)

/-! ## Writes and all the entries of a table -/

namespace CacheTable

variable {table other : CacheTable} {key : String}

/-- The entries of a table by their keys, whether they count or not. -/
def held (table : CacheTable) : CacheEntries :=
  fun key => table[key]?

theorem eq_of_held_eq (h : table.held = other.held) : table = other :=
  Std.ExtTreeMap.ext_getElem? fun key => congrFun h key

theorem held_insert (entry : CacheEntry) :
    held (table.insert key entry) = Function.update table.held key (some entry) := by
  funext found
  by_cases hfound : found = key
  · subst hfound
    rw [Function.update_self, held, Std.ExtTreeMap.getElem?_insert_self]
  · rw [Function.update_of_ne hfound, held, getElem?_insert_of_ne hfound, held]

theorem held_erase : held (table.erase key) = Function.update table.held key none := by
  funext found
  by_cases hfound : found = key
  · subst hfound
    rw [Function.update_self, held, Std.ExtTreeMap.getElem?_erase_self]
  · rw [Function.update_of_ne hfound, held, getElem?_erase_of_ne hfound, held]

end CacheTable

namespace CacheWrite

/-- A write is to keep something for longer than the clock runs. -/
def Overruns (now : Nat) : CacheWrite → Prop
  | setText _ _ ttl => AccountAccess.Overruns now ttl
  | remove _ | addMembers .. => False

instance (now : Nat) : DecidablePred (Overruns now)
  | setText _ _ ttl => inferInstanceAs (Decidable (AccountAccess.Overruns now ttl))
  | remove _ | addMembers .. => isFalse id

/-- What a write makes of the entries. -/
def carriedOut (now : Nat) : CacheWrite → CacheEntries → CacheEntries
  | setText key value ttl, entries =>
    Function.update entries key (some (.textUntil value (now + 1000 * ttl.toNat)))
  | remove key, entries => Function.update entries key none
  | addMembers key members, entries =>
    if members = [] then entries
    else Function.update entries key
      (some (CacheEntry.extended members ((entries key).filter (·.isLive now))))

/-- What writes make of the entries, one after the other and all at one time. -/
def carriedOutAll (now : Nat) (writes : List CacheWrite) (entries : CacheEntries) :
    CacheEntries :=
  writes.foldl (fun entries write => write.carriedOut now entries) entries

/-- The writes in front of the first one that overruns the clock. -/
def inTime (now : Nat) (writes : List CacheWrite) : List CacheWrite :=
  writes.takeWhile fun write => ¬write.Overruns now

theorem inTime_eq_self {now : Nat} {writes : List CacheWrite}
    (h : ∀ write ∈ writes, ¬write.Overruns now) : inTime now writes = writes :=
  List.takeWhile_eq_self_iff.2 fun write hwrite => decide_eq_true (h write hwrite)

end CacheWrite

namespace CacheTable

variable {table : CacheTable} {now : Nat}

theorem write?_of_overruns {write : CacheWrite} (h : write.Overruns now) :
    table.write? now write = none := by
  cases write with
  | setText key value ttl =>
    replace h : Overruns now ttl := h
    rw [write?, h.expiry?_eq, Option.map_none]
  | remove key => exact h.elim
  | addMembers key members => exact h.elim

/-- **One write** that does not overrun the clock is carried out. -/
theorem held_write? {write : CacheWrite} (h : ¬write.Overruns now) :
    ∃ after, table.write? now write = some after ∧
      after.held = write.carriedOut now table.held := by
  cases write with
  | setText key value ttl =>
    exact ⟨_, by rw [write?, expiry?_of_not_overruns h, Option.map_some], held_insert _⟩
  | remove key => exact ⟨_, rfl, held_erase⟩
  | addMembers key members =>
    by_cases hnone : members = []
    · exact ⟨table, if_pos hnone, (if_pos hnone).symm⟩
    · refine ⟨_, write?_addMembers table key hnone, ?_⟩
      rw [held_insert, CacheWrite.carriedOut, if_neg hnone]
      rfl

/-- **Writes in order** are carried out up to the first one that overruns the clock. -/
theorem held_writeAll (table : CacheTable) (now : Nat) (writes : List CacheWrite) :
    ((table.writeAll now writes).1 = true ↔ ∀ write ∈ writes, ¬write.Overruns now) ∧
      (table.writeAll now writes).2.held =
        CacheWrite.carriedOutAll now (CacheWrite.inTime now writes) table.held := by
  induction writes generalizing table with
  | nil => exact ⟨by simp [writeAll], rfl⟩
  | cons write writes ih =>
    rw [writeAll, List.forall_mem_cons, CacheWrite.inTime]
    by_cases hoverruns : write.Overruns now
    · rw [write?_of_overruns hoverruns, List.takeWhile_cons_of_neg (by simpa using hoverruns)]
      exact ⟨by simp [hoverruns], rfl⟩
    · obtain ⟨after, hwrite, hafter⟩ := table.held_write? hoverruns
      obtain ⟨hfinished, hheld⟩ := ih after
      rw [hwrite, List.takeWhile_cons_of_pos (by simpa using hoverruns)]
      refine ⟨hfinished.trans (and_iff_right hoverruns).symm, ?_⟩
      rw [hheld, hafter]
      rfl

end CacheTable

/-! ## How a call can end -/

namespace MemoryCache

variable {cache after : MemoryCache} {now : Nat} {key value : String} {ttl window : UInt64}
  {writes : List CacheWrite}

theorem answer_of_available (havailable : cache.isAvailable = true) (call : CacheCall) :
    cache.answer now call = cache.perform now call :=
  if_pos havailable

/-- **Writes in order** are answered unless one of them overruns the clock, and are never
refused. -/
theorem writeAll_cases (cache : MemoryCache) (now : Nat) (writes : List CacheWrite) :
    ∃ after, after.isAvailable = cache.isAvailable ∧
      after.entries.held =
        CacheWrite.carriedOutAll now (CacheWrite.inTime now writes) cache.entries.held ∧
      ((∀ write ∈ writes, ¬write.Overruns now) ∧
          cache.writeAll now writes = (some (.ok ()), after) ∨
        (∃ write ∈ writes, write.Overruns now) ∧ cache.writeAll now writes = (none, after)) := by
  obtain ⟨hfinished, hheld⟩ := cache.entries.held_writeAll now writes
  refine ⟨{ cache with entries := (cache.entries.writeAll now writes).2 }, rfl, hheld, ?_⟩
  by_cases hall : ∀ write ∈ writes, ¬write.Overruns now
  · refine Or.inl ⟨hall, ?_⟩
    simp only [writeAll, hfinished.2 hall]
    rfl
  · refine Or.inr ⟨by simpa using hall, ?_⟩
    simp only [writeAll, Bool.not_eq_true _ ▸ mt hfinished.1 hall]
    rfl

/-- How a swap can end. -/
inductive SwapEnds (cache : MemoryCache) :
    Option (Except CacheError (Option String)) × MemoryCache → Prop where
  | written (previous : Option String) (after : MemoryCache) :
      SwapEnds cache (some (.ok previous), after)
  | refused : SwapEnds cache (some (.error .unavailable), cache)
  | brokenOff : SwapEnds cache (none, cache)

/-- A swap that does not write leaves the cache as it was. -/
theorem swapEnds (cache : MemoryCache) (now : Nat) (key value : String) (ttl : UInt64) :
    SwapEnds cache (cache.perform now (.swap key value ttl)) := by
  rw [perform_swap]
  cases givenBack? (cache.entries.live now key) with
  | none => exact .refused
  | some previous =>
    dsimp only
    cases cache.entries.write? now (.setText key value ttl) with
    | some entries => exact .written previous _
    | none => exact .brokenOff

/-- A count makes its counter stand at one: no entry counts, or a counter that stands at zero. -/
def StartsCount (now : Nat) (key : String) (entries : CacheEntries) : Prop :=
  ∀ entry, (entries key).filter (·.isLive now) = some entry → entry.value = .counter 0

/-- How a count can end. -/
inductive CountEnds (cache : MemoryCache) (now : Nat) (key : String) (window : UInt64) :
    Option (Except CacheError Int64) × MemoryCache → Prop where
  | counted (n : Int64) (after : MemoryCache)
      (hsound : ¬(StartsCount now key cache.entries.held ∧ Overruns now window)) :
      CountEnds cache now key window (some (.ok n), after)
  | refused (hsound : ¬(StartsCount now key cache.entries.held ∧ Overruns now window)) :
      CountEnds cache now key window (some (.error .unavailable), cache)
  | brokenOff (after : MemoryCache) (hchanged : after.entries ≠ cache.entries)
      (hstarts : StartsCount now key cache.entries.held) (hoverruns : Overruns now window) :
      CountEnds cache now key window (none, after)

theorem add_one_eq_one_iff {n : Int64} : n + 1 = 1 ↔ n = 0 := by
  constructor
  · intro h
    have hback : n + 1 - 1 = 1 - 1 := by rw [h]
    rwa [Int64.add_sub_cancel] at hback
  · rintro rfl
    rfl

theorem startsCount_iff : StartsCount now key cache.entries.held ↔
    ∃ expiresAt, countsFrom? (cache.entries.live now key) = some (0, expiresAt) := by
  have hlive : (cache.entries.held key).filter (·.isLive now) = cache.entries.live now key := rfl
  rw [StartsCount, hlive]
  rcases cache.entries.live now key with _ | ⟨text | set | n, expiresAt⟩
  · simp [countsFrom?]
  · simp [countsFrom?]
  · simp [countsFrom?]
  · simp [countsFrom?]

/-- The counter that a count starts did not stand there before. -/
theorem getElem?_ne_of_countsFrom? {expiresAt : Option Nat}
    (hfrom : countsFrom? (cache.entries.live now key) = some (0, expiresAt)) :
    cache.entries[key]? ≠ some ⟨.counter 1, expiresAt⟩ := by
  intro hone
  rw [CacheTable.live, CacheTable.live?, hone, Option.filter_some] at hfrom
  by_cases hlive : CacheEntry.isLive now ⟨.counter 1, expiresAt⟩ = true
  · rw [if_pos hlive] at hfrom
    exact absurd (Prod.mk.inj (Option.some.inj hfrom)).1 (by decide)
  · rw [if_neg hlive] at hfrom
    obtain rfl := (Prod.mk.inj (Option.some.inj hfrom)).2
    exact hlive rfl

/-- **A count** breaks off exactly if it makes its counter stand at one and its window overruns
the clock, and then it leaves a counter behind. -/
theorem countEnds (cache : MemoryCache) (now : Nat) (key : String) (window : UInt64) :
    CountEnds cache now key window (cache.perform now (.count key window)) := by
  rw [perform_count_eq]
  rcases hfrom : countsFrom? (cache.entries.live now key) with _ | ⟨n, expiresAt⟩
  · refine .refused fun hboth => ?_
    rw [startsCount_iff, hfrom] at hboth
    exact absurd hboth.1 (by simp)
  · dsimp only
    by_cases hfirst : n + 1 = 1
    · obtain rfl := add_one_eq_one_iff.1 hfirst
      rw [if_pos hfirst]
      by_cases hoverruns : Overruns now window
      · rw [hoverruns.expiry?_eq]
        refine .brokenOff _ (fun hsame => ?_) (startsCount_iff.2 ⟨expiresAt, hfrom⟩) hoverruns
        refine getElem?_ne_of_countsFrom? hfrom ?_
        rw [← hsame, Std.ExtTreeMap.getElem?_insert_self]
      · rw [expiry?_of_not_overruns hoverruns]
        exact .counted 1 _ fun hboth => hoverruns hboth.2
    · rw [if_neg hfirst]
      refine .counted _ _ fun hboth => hfirst (add_one_eq_one_iff.2 ?_)
      obtain ⟨_, hzero⟩ := startsCount_iff.1 hboth.1
      rw [hfrom] at hzero
      exact (Prod.mk.inj (Option.some.inj hzero)).1

/-! ## What a call that breaks off leaves behind -/

/-- A call breaks off after it has changed something. -/
inductive LeavesTraces (now : Nat) (entries : CacheEntries) : CacheCall → Prop where
  /-- A write overruns the clock, and those in front of it have made a difference. -/
  | write {writes : List CacheWrite} (hoverruns : ∃ write ∈ writes, write.Overruns now)
      (hchanged : CacheWrite.carriedOutAll now (CacheWrite.inTime now writes) entries ≠ entries) :
      LeavesTraces now entries (.write writes)
  /-- A counter is made to stand at one, and its window overruns the clock. -/
  | count {key : String} {window : UInt64} (hstarts : StartsCount now key entries)
      (hoverruns : Overruns now window) : LeavesTraces now entries (.count key window)

/-- A refusal leaves the cache as it was. -/
def RefusesCleanly (cache : MemoryCache) (now : Nat) (call : CacheCall) : Prop :=
  ∀ e after, cache.answer now call = (some (.error e), after) → after = cache

/-- A call that breaks off leaves the entries as they were. -/
def BreaksOffCleanly (cache : MemoryCache) (now : Nat) (call : CacheCall) : Prop :=
  ∀ after, cache.answer now call = (none, after) → after.entries = cache.entries

/-- **Every refusal leaves the cache as it was.** -/
theorem refusesCleanly (cache : MemoryCache) (now : Nat) (call : CacheCall) :
    RefusesCleanly cache now call := by
  intro e after hanswer
  by_cases havailable : cache.isAvailable = true
  · rw [answer_of_available havailable] at hanswer
    have hwrites : ∀ writes, cache.writeAll now writes ≠ (some (.error e), after) := by
      intro writes hrefused
      obtain ⟨_, -, -, ⟨-, hends⟩ | ⟨-, hends⟩⟩ := cache.writeAll_cases now writes
      · exact absurd (hends.symm.trans hrefused) (by simp)
      · exact absurd (hends.symm.trans hrefused) (by simp)
    cases call with
    | get key => exact absurd hanswer (by simp [perform])
    | anyMember key members => exact absurd hanswer (by simp [perform])
    | set key value ttl => exact absurd hanswer (hwrites [.setText key value ttl])
    | remove keys => exact absurd hanswer (hwrites (keys.map .remove))
    | write writes => exact absurd hanswer (hwrites writes)
    | swap key value ttl =>
      have hends := cache.swapEnds now key value ttl
      rw [hanswer] at hends
      cases hends
      rfl
    | count key window =>
      have hends := cache.countEnds now key window
      rw [hanswer] at hends
      cases hends
      rfl
  · rw [answer, if_neg havailable] at hanswer
    exact (Prod.mk.inj hanswer).2.symm

/-- **Writes that are answered have all been carried out**, one after the other. -/
theorem held_of_written (hanswer : cache.answer now (.write writes) = (some (.ok ()), after)) :
    after.isAvailable = cache.isAvailable ∧
      after.entries.held = CacheWrite.carriedOutAll now writes cache.entries.held := by
  by_cases havailable : cache.isAvailable = true
  · replace hanswer : cache.writeAll now writes = (some (.ok ()), after) :=
      (answer_of_available havailable _).symm.trans hanswer
    obtain ⟨_, hkept, hheld, ⟨hall, hends⟩ | ⟨-, hends⟩⟩ := cache.writeAll_cases now writes
    · obtain rfl := (Prod.mk.inj (hends.symm.trans hanswer)).2
      rw [CacheWrite.inTime_eq_self hall] at hheld
      exact ⟨hkept, hheld⟩
    · exact absurd (hends.symm.trans hanswer) (by simp)
  · rw [answer, if_neg havailable] at hanswer
    exact absurd hanswer (by simp)

/-- A single write that breaks off changes nothing. -/
theorem writeAll_single {write : CacheWrite}
    (hbroken : cache.writeAll now [write] = (none, after)) : after.entries = cache.entries := by
  obtain ⟨_, -, hheld, ⟨-, hends⟩ | ⟨⟨_, hmem, hoverruns⟩, hends⟩⟩ :=
    cache.writeAll_cases now [write]
  · exact absurd (hends.symm.trans hbroken) (by simp)
  · obtain rfl := (Prod.mk.inj (hends.symm.trans hbroken)).2
    obtain rfl := List.mem_singleton.1 hmem
    rw [CacheWrite.inTime, List.takeWhile_cons_of_neg (by simpa using hoverruns)] at hheld
    exact CacheTable.eq_of_held_eq hheld

theorem breaksOffCleanly_write_iff (havailable : cache.isAvailable = true) :
    BreaksOffCleanly cache now (.write writes) ↔
      ¬LeavesTraces now cache.entries.held (.write writes) := by
  obtain ⟨left, -, hheld, ⟨hall, hends⟩ | ⟨hoverruns, hends⟩⟩ := cache.writeAll_cases now writes
  · refine iff_of_true (fun after hbroken => ?_) ?_
    · rw [answer_of_available havailable] at hbroken
      exact absurd (hends.symm.trans hbroken) (by simp)
    · rintro ⟨⟨write, hmem, hoverruns⟩, -⟩
      exact hall write hmem hoverruns
  · have hsame : left.entries = cache.entries ↔
        CacheWrite.carriedOutAll now (CacheWrite.inTime now writes) cache.entries.held =
          cache.entries.held := by
      rw [← hheld]
      exact ⟨fun h => by rw [h], CacheTable.eq_of_held_eq⟩
    constructor
    · rintro hclean ⟨-, hchanged⟩
      exact hchanged (hsame.1 (hclean left ((answer_of_available havailable _).trans hends)))
    · intro hnone after hbroken
      rw [answer_of_available havailable] at hbroken
      obtain rfl := (Prod.mk.inj (hends.symm.trans hbroken)).2
      by_contra hchanged
      exact hnone (.write hoverruns (mt hsame.2 hchanged))

theorem breaksOffCleanly_count_iff (havailable : cache.isAvailable = true) :
    BreaksOffCleanly cache now (.count key window) ↔
      ¬LeavesTraces now cache.entries.held (.count key window) := by
  have hends := cache.countEnds now key window
  constructor
  · rintro hclean (_ | ⟨hstarts, hoverruns⟩)
    rcases hperform : cache.perform now (.count key window) with ⟨answer, left⟩
    rw [hperform] at hends
    cases hends with
    | counted _ _ hsound => exact hsound ⟨hstarts, hoverruns⟩
    | refused hsound => exact hsound ⟨hstarts, hoverruns⟩
    | brokenOff _ hchanged =>
      exact hchanged (hclean left ((answer_of_available havailable _).trans hperform))
  · intro hnone after hbroken
    rw [answer_of_available havailable] at hbroken
    rw [hbroken] at hends
    cases hends with
    | brokenOff _ hchanged hstarts hoverruns => exact absurd (.count hstarts hoverruns) hnone

/-- **A call that breaks off leaves traces** exactly in the two cases. -/
theorem breaksOffCleanly_iff (havailable : cache.isAvailable = true) (call : CacheCall) :
    BreaksOffCleanly cache now call ↔ ¬LeavesTraces now cache.entries.held call := by
  have hclean (hnone : ¬LeavesTraces now cache.entries.held call)
      (hperform : ∀ after, cache.perform now call = (none, after) → after.entries = cache.entries) :
      BreaksOffCleanly cache now call ↔ ¬LeavesTraces now cache.entries.held call := by
    refine iff_of_true (fun after hbroken => hperform after ?_) hnone
    rwa [answer_of_available havailable] at hbroken
  cases call with
  | get key =>
    refine hclean (by rintro ⟨⟩) fun after hbroken => ?_
    exact absurd hbroken (by simp [perform])
  | anyMember key members =>
    refine hclean (by rintro ⟨⟩) fun after hbroken => ?_
    exact absurd hbroken (by simp [perform])
  | set key value ttl => exact hclean (by rintro ⟨⟩) fun after hbroken => writeAll_single hbroken
  | remove keys =>
    refine hclean (by rintro ⟨⟩) fun after hbroken => ?_
    obtain ⟨_, -, -, ⟨-, hends⟩ | ⟨⟨write, hmem, hoverruns⟩, -⟩⟩ :=
      cache.writeAll_cases now (keys.map .remove)
    · exact absurd (hends.symm.trans hbroken) (by simp)
    · obtain ⟨key, -, rfl⟩ := List.mem_map.1 hmem
      exact hoverruns.elim
  | swap key value ttl =>
    refine hclean (by rintro ⟨⟩) fun after hbroken => ?_
    have hends := cache.swapEnds now key value ttl
    rw [hbroken] at hends
    cases hends
    rfl
  | write writes => exact breaksOffCleanly_write_iff havailable
  | count key window => exact breaksOffCleanly_count_iff havailable

/-- **All or nothing, with two exceptions.**  A call that is refused leaves the cache as it was.
Writes that are answered have been carried out one after the other, all at the same time.  And a
call that breaks off leaves the entries as they were, unless it is one of two: writes of which one
overruns the clock after those in front of it have made a difference, or a count that makes its
counter stand at one and whose window overruns the clock. -/
theorem all_or_nothing_iff (cache : MemoryCache) (now : Nat) (call : CacheCall) :
    RefusesCleanly cache now call ∧
      (∀ writes after, cache.answer now (.write writes) = (some (.ok ()), after) →
        after.isAvailable = cache.isAvailable ∧
          after.entries.held = CacheWrite.carriedOutAll now writes cache.entries.held) ∧
      (BreaksOffCleanly cache now call ↔
        ¬(cache.isAvailable = true ∧ LeavesTraces now cache.entries.held call)) := by
  refine ⟨cache.refusesCleanly now call, fun _ _ => held_of_written, ?_⟩
  by_cases havailable : cache.isAvailable = true
  · rw [breaksOffCleanly_iff havailable, and_iff_right havailable]
  · refine iff_of_true (fun after hbroken => ?_) fun hboth => havailable hboth.1
    rw [answer, if_neg havailable] at hbroken
    exact absurd hbroken (by simp)

/-- A time to live for which no clock runs long enough. -/
def endless : UInt64 := 0xFFFFFFFFFFFFFFFF

/-- A cache that holds a set. -/
def holdingSet : MemoryCache :=
  { entries := (∅ : CacheTable).insert "codes"
      ⟨.members ((∅ : Std.ExtTreeSet String).insertMany ["read"]), none⟩ }

/-- A swap is refused, writes are carried out, and writes that break off at the first one change
nothing. -/
theorem all_or_nothing_iff_holdingSet :
    (holdingSet.answer 0 (.swap "codes" "text" 60) =
          (some (.error .unavailable), (holdingSet.answer 0 (.swap "codes" "text" 60)).2) ∧
        (holdingSet.answer 0 (.swap "codes" "text" 60)).2 = holdingSet) ∧
      (∃ after, holdingSet.answer 0 (.write [.remove "codes", .setText "codes" "text" 60]) =
          (some (.ok ()), after) ∧
        after.entries.held = CacheWrite.carriedOutAll 0
          [.remove "codes", .setText "codes" "text" 60] holdingSet.entries.held) ∧
      (∃ after, holdingSet.answer 0
          (.write [.setText "codes" "text" endless, .remove "codes"]) = (none, after) ∧
        after.entries = holdingSet.entries) := by
  refine ⟨?_, ?_, ?_⟩
  · have hrefused : holdingSet.answer 0 (.swap "codes" "text" 60) =
        (some (.error .unavailable), (holdingSet.answer 0 (.swap "codes" "text" 60)).2) := rfl
    exact ⟨hrefused,
      (all_or_nothing_iff holdingSet 0 (.swap "codes" "text" 60)).1 _ _ hrefused⟩
  · have hwritten : holdingSet.answer 0 (.write [.remove "codes", .setText "codes" "text" 60]) =
        (some (.ok ()), (holdingSet.answer 0
          (.write [.remove "codes", .setText "codes" "text" 60])).2) := rfl
    exact ⟨_, hwritten, ((all_or_nothing_iff holdingSet 0 (.get "codes")).2.1 _ _ hwritten).2⟩
  · have hbroken : holdingSet.answer 0
        (.write [.setText "codes" "text" endless, .remove "codes"]) = (none, (holdingSet.answer 0
          (.write [.setText "codes" "text" endless, .remove "codes"])).2) := rfl
    refine ⟨_, hbroken, (all_or_nothing_iff holdingSet 0 _).2.2.2 ?_ _ hbroken⟩
    rintro ⟨-, htraces⟩
    cases htraces with
    | write hoverruns hchanged => exact hchanged rfl

/-- **Both exceptions arise** in an empty cache.  Of two writes the second overruns the clock, and
the first can be read afterwards.  A first count whose window overruns the clock leaves a counter
that stands for ever. -/
theorem traces_of_endless :
    (∃ after, answer {} 0
          (.write [.setText "first" "text" 60, .setText "second" "text" endless]) = (none, after) ∧
        after.textAt 0 "first" = some "text" ∧ textAt {} 0 "first" = none ∧
        after.entries ≠ (∅ : CacheTable)) ∧
      ∃ after, answer {} 0 (.count "client" endless) = (none, after) ∧
        after.textAt (10 ^ 15) "client" = some "1" ∧ textAt {} 0 "client" = none ∧
        after.entries ≠ (∅ : CacheTable) := by
  have hchanged : ∀ entries : CacheTable, entries.isEmpty = false → entries ≠ ∅ := by
    rintro entries hfilled rfl
    exact absurd hfilled (by decide)
  refine ⟨⟨_, rfl, ?_, rfl, hchanged _ ?_⟩, ⟨_, rfl, ?_, rfl, hchanged _ ?_⟩⟩
  · decide +kernel
  · decide +kernel
  · decide +kernel
  · decide +kernel

end MemoryCache
end AccountAccess
