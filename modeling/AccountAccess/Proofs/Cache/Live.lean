import AccountAccess.Proofs.Cache.Table
import Mathlib.Algebra.Group.Nat.Defs
import Mathlib.Logic.Function.Basic
import Mathlib.Tactic.SplitIfs

/-!
# The entries that count

What a call is answered with depends on the entries that have not expired, and only on them.  So
the cache is described by the function from keys to such entries.  A write changes it at one key,
and time takes away the entries that have come to their end.

The table behind it may hold expired entries as well.  They are never seen: a write starts afresh
where there is one.

## How it is used

A call is looked at through `Performs`: it is answered with a result, and certain entries count
afterwards.  The table itself is not mentioned there.  There is one lemma of this form for each kind
of call, so what follows about runs of calls never opens a table again.

What is kept for too long a time breaks the call off.  `Lasts` leaves such times out, together with
those that end at once: with it a write has its effect and nothing else happens.

## Main results

* `live`, `live_later`: the entries that count at a time, and what time does to them.
* `live_write?`, `live_writeAll`: what a write, and writes in order, make of them.
* `performs_get`, `performs_set`, `performs_write`, `performs_remove`, `performs_swap`,
  `performs_anyMember_members`, `performs_count`: one law for each kind of call.
* `perform_swap`, `perform_count`: the same two calls with any time to live.
-/

namespace AccountAccess

/-! ## Tables of which some entries count -/

section Filter

variable {β : Type} {counts : β → Bool} {table : Std.ExtTreeMap String β} {key : String} {entry : β}

/-- An entry changes what counts at its key. -/
theorem filter_getElem?_insert_eq :
    (fun other => (table.insert key entry)[other]?.filter counts) =
      Function.update (fun other => table[other]?.filter counts) key
        ((some entry).filter counts) := by
  funext other
  by_cases hother : other = key
  · subst hother
    rw [Function.update_self, Std.ExtTreeMap.getElem?_insert_self]
  · rw [Function.update_of_ne hother, Std.ExtTreeMap.getElem?_insert, if_neg]
    rw [Std.compare_eq_iff_eq]
    exact Ne.symm hother

theorem filter_getElem?_insert (h : counts entry = true) :
    (fun other => (table.insert key entry)[other]?.filter counts) =
      Function.update (fun other => table[other]?.filter counts) key (some entry) := by
  rw [filter_getElem?_insert_eq, Option.filter_some, if_pos h]

/-- Where an entry is removed nothing counts. -/
theorem filter_getElem?_erase :
    (fun other => (table.erase key)[other]?.filter counts) =
      Function.update (fun other => table[other]?.filter counts) key none := by
  funext other
  by_cases hother : other = key
  · subst hother
    rw [Function.update_self, Std.ExtTreeMap.getElem?_erase_self, Option.filter_none]
  · rw [Function.update_of_ne hother, Std.ExtTreeMap.getElem?_erase, if_neg]
    rw [Std.compare_eq_iff_eq]
    exact Ne.symm hother

theorem all_lt_of_le {expiresAt : Option Nat} {now later : Nat} (h : now ≤ later)
    (hlater : expiresAt.all (later < ·) = true) : expiresAt.all (now < ·) = true := by
  cases expiresAt with
  | none => rfl
  | some at_ =>
    rw [Option.all_some, decide_eq_true_eq] at hlater ⊢
    omega

end Filter

/-! ## The entries of the cache that count -/

/-- Entries by their keys. -/
abbrev CacheEntries := String → Option CacheEntry

namespace CacheEntry

theorem isLive_eq_all (now : Nat) (entry : CacheEntry) :
    entry.isLive now = entry.expiresAt.all (now < ·) := by
  rw [isLive]
  cases entry.expiresAt with
  | none => rfl
  | some at_ => rfl

end CacheEntry

namespace CacheTable

/-- The entries that count at a time. -/
def live (table : CacheTable) (now : Nat) : CacheEntries :=
  fun key => table.live? now key

variable {table : CacheTable} {now : Nat} {key : String} {entry : CacheEntry}

theorem live_insert_eq : live (table.insert key entry) now =
    Function.update (table.live now) key ((some entry).filter (·.isLive now)) :=
  filter_getElem?_insert_eq

theorem live_insert (h : entry.isLive now = true) :
    live (table.insert key entry) now = Function.update (table.live now) key (some entry) :=
  filter_getElem?_insert h

theorem live_erase : live (table.erase key) now = Function.update (table.live now) key none :=
  filter_getElem?_erase

/-- **Time takes entries away** and does nothing else. -/
theorem live_later {later : Nat} (h : now ≤ later) :
    table.live later = fun key => (table.live now key).filter (·.isLive later) := by
  funext key
  simp only [live, live?, Option.filter_filter]
  congr 1
  funext entry
  cases hlater : entry.isLive later with
  | false => rw [Bool.and_false]
  | true =>
    rw [CacheEntry.isLive_eq_all] at hlater ⊢
    rw [all_lt_of_le h hlater, Bool.and_true]

end CacheTable

/-! ## What a write does -/

/-- The entry of a set with more members; where no set counts there is a new one. -/
def CacheEntry.extended (members : List String) : Option CacheEntry → CacheEntry
  | some ⟨.members set, expiresAt⟩ => ⟨.members (set.insertMany members), expiresAt⟩
  | _ => ⟨.members ((∅ : Std.ExtTreeSet String).insertMany members), none⟩

/-- A time to live that does not end at once and that any clock of 63 bits can show, whether it
counts seconds or milliseconds. -/
def Lasts (now : Nat) (ttl : UInt64) : Prop :=
  0 < ttl.toNat ∧ now + 1000 * ttl.toNat < 2 ^ 63

theorem Lasts.expiry?_eq {now : Nat} {ttl : UInt64} (h : Lasts now ttl) :
    expiry? now ttl = some (now + 1000 * ttl.toNat) := by
  refine expiry?_eq_some ?_
  have hend : clockEnd = 2 ^ 63 - 1 := rfl
  have hlasts := h.2
  omega

theorem Lasts.isLive {now : Nat} {ttl : UInt64} (h : Lasts now ttl) (value : CacheValue) :
    CacheEntry.isLive now ⟨value, some (now + 1000 * ttl.toNat)⟩ = true := by
  have hpos := h.1
  rw [CacheEntry.isLive, decide_eq_true_eq]
  omega

namespace CacheWrite

/-- What is to be kept for a time can be kept for that time. -/
def Lasts (now : Nat) : CacheWrite → Prop
  | setText _ _ ttl => AccountAccess.Lasts now ttl
  | remove _ | addMembers .. => True

/-- The entries after a write. -/
def effect (now : Nat) : CacheWrite → CacheEntries → CacheEntries
  | setText key value ttl, entries =>
    Function.update entries key (some ⟨.text value, some (now + 1000 * ttl.toNat)⟩)
  | remove key, entries => Function.update entries key none
  | addMembers key members, entries =>
    if members = [] then entries
    else Function.update entries key (some (CacheEntry.extended members (entries key)))

/-- The entries after writes in order. -/
def effects (now : Nat) (writes : List CacheWrite) (entries : CacheEntries) : CacheEntries :=
  writes.foldl (fun entries write => write.effect now entries) entries

end CacheWrite

namespace CacheTable

variable {now : Nat}

theorem isLive_extended (table : CacheTable) (key : String) (members : List String) :
    (CacheEntry.extended members (table.live now key)).isLive now = true := by
  unfold CacheEntry.extended
  split
  · rename_i set expiresAt hset
    exact (Option.filter_eq_some_iff.1 hset).2
  · rfl

/-- Members are added to the set that counts. -/
theorem write?_addMembers (table : CacheTable) (key : String) {members : List String}
    (h : members ≠ []) : table.write? now (.addMembers key members) =
      some (table.insert key (CacheEntry.extended members (table.live now key))) := by
  rw [write?, if_neg h, live]
  rcases table.live? now key with _ | ⟨value | set | n, expiresAt⟩
  · rfl
  · rfl
  · rfl
  · rfl

/-- **One write** changes the entries that count at its key. -/
theorem live_write? (table : CacheTable) {write : CacheWrite} (h : write.Lasts now) :
    ∃ after, table.write? now write = some after ∧
      live after now = write.effect now (table.live now) := by
  cases write with
  | setText key value ttl =>
    replace h : Lasts now ttl := h
    refine ⟨_, by rw [write?, h.expiry?_eq, Option.map_some], live_insert (h.isLive _)⟩
  | remove key => exact ⟨_, rfl, live_erase⟩
  | addMembers key members =>
    by_cases hnone : members = []
    · exact ⟨table, if_pos hnone, (if_pos hnone).symm⟩
    · refine ⟨_, table.write?_addMembers key hnone, ?_⟩
      rw [live_insert (table.isLive_extended key members), CacheWrite.effect, if_neg hnone]

/-- **Writes in order** all have their effect. -/
theorem live_writeAll (table : CacheTable) {writes : List CacheWrite}
    (h : ∀ write ∈ writes, write.Lasts now) :
    ∃ after, table.writeAll now writes = (true, after) ∧
      live after now = CacheWrite.effects now writes (table.live now) := by
  induction writes generalizing table with
  | nil => exact ⟨table, rfl, rfl⟩
  | cons write writes ih =>
    rw [List.forall_mem_cons] at h
    obtain ⟨between, hwrite, hbetween⟩ := table.live_write? h.1
    obtain ⟨after, hwrites, hafter⟩ := ih between h.2
    refine ⟨after, ?_, ?_⟩
    · rw [writeAll, hwrite]
      exact hwrites
    · rw [hafter, hbetween]
      rfl

end CacheTable

/-! ## What a call does -/

namespace MemoryCache

variable {cache : MemoryCache} {now : Nat} {call : CacheCall} {key value : String}
  {expiresAt : Option Nat}

/-- A call is answered with a result, and these entries count afterwards; the cache goes on
answering. -/
def Performs (cache : MemoryCache) (now : Nat) (call : CacheCall) (result : call.Result)
    (entries : CacheEntries) : Prop :=
  ∃ after, cache.answer now call = (some (.ok result), after) ∧ after.isAvailable = true ∧
    after.entries.live now = entries

theorem performs_of_perform (havailable : cache.isAvailable = true) {result : call.Result}
    {after : MemoryCache} (h : cache.perform now call = (some (.ok result), after)) :
    cache.Performs now call result (after.entries.live now) := by
  refine ⟨after, by rw [answer, if_pos havailable, h], ?_, rfl⟩
  have hkept := cache.isAvailable_perform now call
  rwa [h, havailable] at hkept

/-- **Writes in order**, as one call. -/
theorem performs_writeAll (havailable : cache.isAvailable = true) {writes : List CacheWrite}
    (hlasts : ∀ write ∈ writes, write.Lasts now) :
    ∃ after, cache.writeAll now writes = (some (.ok ()), after) ∧ after.isAvailable = true ∧
      after.entries.live now = CacheWrite.effects now writes (cache.entries.live now) := by
  obtain ⟨after, hwrites, hafter⟩ := cache.entries.live_writeAll hlasts
  exact ⟨{ cache with entries := after }, by rw [writeAll, hwrites]; rfl, havailable, hafter⟩

/-! ## Reading, writing and removing -/

theorem performs_get (havailable : cache.isAvailable = true) (key : String) :
    cache.Performs now (.get key) (cache.textAt now key) (cache.entries.live now) :=
  performs_of_perform havailable rfl

theorem performs_set (havailable : cache.isAvailable = true) (key value : String) {ttl : UInt64}
    (httl : Lasts now ttl) :
    cache.Performs now (.set key value ttl) () (Function.update (cache.entries.live now) key
      (some ⟨.text value, some (now + 1000 * ttl.toNat)⟩)) := by
  have hlasts : ∀ write ∈ [CacheWrite.setText key value ttl], write.Lasts now := by
    rintro write hwrite
    rw [List.mem_singleton.1 hwrite]
    exact httl
  obtain ⟨after, hwrites, -, hafter⟩ := performs_writeAll havailable hlasts
  have hperforms : cache.Performs now (.set key value ttl) () (after.entries.live now) :=
    performs_of_perform havailable hwrites
  rwa [hafter] at hperforms

theorem performs_write (havailable : cache.isAvailable = true) {writes : List CacheWrite}
    (hlasts : ∀ write ∈ writes, write.Lasts now) :
    cache.Performs now (.write writes) ()
      (CacheWrite.effects now writes (cache.entries.live now)) := by
  obtain ⟨after, hwrites, -, hafter⟩ := performs_writeAll havailable hlasts
  have hperforms : cache.Performs now (.write writes) () (after.entries.live now) :=
    performs_of_perform havailable hwrites
  rwa [hafter] at hperforms

/-- Removing keys leaves all others. -/
theorem effects_remove (keys : List String) (entries : CacheEntries) :
    CacheWrite.effects now (keys.map .remove) entries =
      fun key => if key ∈ keys then none else entries key := by
  induction keys generalizing entries with
  | nil => rfl
  | cons key keys ih =>
    have hhead : CacheWrite.effects now ((key :: keys).map .remove) entries =
        CacheWrite.effects now (keys.map .remove) (Function.update entries key none) := rfl
    rw [hhead, ih]
    funext other
    simp only [Function.update_apply, List.mem_cons]
    split_ifs <;> simp_all

theorem performs_remove (havailable : cache.isAvailable = true) (keys : List String) :
    cache.Performs now (.remove keys) ()
      fun key => if key ∈ keys then none else cache.entries.live now key := by
  have hlasts : ∀ write ∈ keys.map CacheWrite.remove, write.Lasts now := by
    intro write hwrite
    obtain ⟨key, -, rfl⟩ := List.mem_map.1 hwrite
    trivial
  obtain ⟨after, hwrites, -, hafter⟩ := performs_writeAll havailable hlasts
  have hperforms : cache.Performs now (.remove keys) () (after.entries.live now) :=
    performs_of_perform havailable hwrites
  rwa [hafter, effects_remove] at hperforms

/-! ## Swapping -/

/-- What a swap gives back where an entry counts, or none does; a set or a counter refuses it. -/
def givenBack? : Option CacheEntry → Option (Option String)
  | none => some none
  | some ⟨.text old, _⟩ => some (some old)
  | some _ => none

/-- Where a text counts, or nothing does, a swap gives it back and writes another. -/
theorem perform_swap (cache : MemoryCache) (now : Nat) (key value : String) (ttl : UInt64) :
    cache.perform now (.swap key value ttl) =
      match givenBack? (cache.entries.live now key) with
      | some previous =>
        match cache.entries.write? now (.setText key value ttl) with
        | some entries => (some (.ok previous), { cache with entries })
        | none => (none, cache)
      | none => (some (.error .unavailable), cache) := by
  simp only [perform, CacheTable.live]
  rcases cache.entries.live? now key with _ | ⟨old | set | n, expiresAt⟩
  · rfl
  · rfl
  · rfl
  · rfl

/-- The text that a writing of a text replaces. -/
theorem performs_swap (havailable : cache.isAvailable = true) (value : String) {ttl : UInt64}
    {previous : Option String} (httl : Lasts now ttl)
    (hkey : (cache.entries.live now key = none ∧ previous = none) ∨
      ∃ old expiresAt, cache.entries.live now key = some ⟨.text old, expiresAt⟩ ∧
        previous = some old) :
    cache.Performs now (.swap key value ttl) previous (Function.update (cache.entries.live now) key
      (some ⟨.text value, some (now + 1000 * ttl.toNat)⟩)) := by
  have hlasts : CacheWrite.Lasts now (.setText key value ttl) := httl
  obtain ⟨entries, hwrite, hentries⟩ := cache.entries.live_write? hlasts
  have hperform : cache.perform now (.swap key value ttl) =
      (some (.ok previous), { cache with entries }) := by
    rw [perform_swap, hwrite]
    rcases hkey with ⟨hkey, rfl⟩ | ⟨old, expiresAt, hkey, rfl⟩
    · rw [hkey]
      rfl
    · rw [hkey]
      rfl
  have hperforms := performs_of_perform havailable hperform
  rwa [hentries] at hperforms

/-! ## Asking for members -/

theorem performs_anyMember_none (havailable : cache.isAvailable = true) (members : List String)
    (hkey : cache.entries.live now key = none) :
    cache.Performs now (.anyMember key members) false (cache.entries.live now) := by
  replace hkey : cache.entries.live? now key = none := hkey
  have hperform : cache.perform now (.anyMember key members) = (some (.ok false), cache) := by
    rw [perform, hkey]
  exact performs_of_perform havailable hperform

theorem performs_anyMember_nil (havailable : cache.isAvailable = true) (key : String) :
    cache.Performs now (.anyMember key []) false (cache.entries.live now) := by
  have hperform : cache.perform now (.anyMember key []) = (some (.ok false), cache) := by
    rw [perform]
    split
    · rfl
    · rfl
  exact performs_of_perform havailable hperform

theorem performs_anyMember_members (havailable : cache.isAvailable = true) (members : List String)
    {set : Std.ExtTreeSet String}
    (hkey : cache.entries.live now key = some ⟨.members set, expiresAt⟩) :
    cache.Performs now (.anyMember key members) (members.any set.contains)
      (cache.entries.live now) := by
  replace hkey : cache.entries.live? now key = some ⟨.members set, expiresAt⟩ := hkey
  have hperform : cache.perform now (.anyMember key members) =
      (some (.ok (members.any set.contains)), cache) := by
    rw [perform, hkey]
  exact performs_of_perform havailable hperform

/-! ## Counting -/

/-- Where a count starts from, and when its counter expires; a text or a set refuses it. -/
def countsFrom? : Option CacheEntry → Option (Int64 × Option Nat)
  | none => some (0, none)
  | some ⟨.counter n, expiresAt⟩ => some (n, expiresAt)
  | some _ => none

/-- Where a counter counts, or nothing does, a count makes it one more.  A counter that then
stands at one is given its window, unless the clock ends before. -/
theorem perform_count_eq (cache : MemoryCache) (now : Nat) (key : String) (window : UInt64) :
    cache.perform now (.count key window) =
      match countsFrom? (cache.entries.live now key) with
      | some (n, expiresAt) =>
        if n + 1 = 1 then
          match expiry? now window with
          | some deadline => (some (.ok 1),
            { cache with entries := cache.entries.insert key ⟨.counter 1, some deadline⟩ })
          | none =>
            (none, { cache with entries := cache.entries.insert key ⟨.counter 1, expiresAt⟩ })
        else (some (.ok (n + 1)),
          { cache with entries := cache.entries.insert key ⟨.counter (n + 1), expiresAt⟩ })
      | none => (some (.error .unavailable), cache) := by
  simp only [perform, CacheTable.live]
  rcases cache.entries.live? now key with _ | ⟨text | set | n, expiresAt⟩
  · rfl
  · rfl
  · rfl
  · rfl

/-- A counter is one more after a count; where none counts it starts afresh. -/
theorem perform_count {n : Int64} {window : UInt64} {deadline : Nat}
    (hwindow : expiry? now window = some deadline)
    (hkey : (cache.entries.live now key = none ∧ n = 0 ∧ expiresAt = none) ∨
      cache.entries.live now key = some ⟨.counter n, expiresAt⟩) :
    cache.perform now (.count key window) =
      (some (.ok (n + 1)), { cache with entries := cache.entries.insert key ⟨.counter (n + 1),
        if n + 1 = 1 then some deadline else expiresAt⟩ }) := by
  have hfrom : countsFrom? (cache.entries.live now key) = some (n, expiresAt) := by
    rcases hkey with ⟨hkey, rfl, rfl⟩ | hkey
    · rw [hkey]
      rfl
    · rw [hkey]
      rfl
  rw [perform_count_eq, hfrom, hwindow]
  dsimp only
  by_cases hfirst : n + 1 = 1
  · rw [if_pos hfirst, if_pos hfirst, hfirst]
  · rw [if_neg hfirst, if_neg hfirst]

/-- **A count** is one more than the counter stood at; a counter that then stands at one expires
a window later, and any other when it did before. -/
theorem performs_count (havailable : cache.isAvailable = true) {n : Int64} {window : UInt64}
    (hwindow : Lasts now window)
    (hkey : (cache.entries.live now key = none ∧ n = 0 ∧ expiresAt = none) ∨
      cache.entries.live now key = some ⟨.counter n, expiresAt⟩) :
    cache.Performs now (.count key window) (n + 1) (Function.update (cache.entries.live now) key
      (some ⟨.counter (n + 1),
        if n + 1 = 1 then some (now + 1000 * window.toNat) else expiresAt⟩)) := by
  have hlive : CacheEntry.isLive now ⟨.counter (n + 1),
      if n + 1 = 1 then some (now + 1000 * window.toNat) else expiresAt⟩ = true := by
    split
    · exact hwindow.isLive _
    · rcases hkey with ⟨-, -, rfl⟩ | hkey
      · rfl
      · exact (Option.filter_eq_some_iff.1 hkey).2
  have hperforms := performs_of_perform havailable (perform_count hwindow.expiry?_eq hkey)
  rwa [CacheTable.live_insert hlive] at hperforms

end MemoryCache
end AccountAccess
