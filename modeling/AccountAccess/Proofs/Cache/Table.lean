import AccountAccess.Cache.Memory

/-!
# What a call does to the table

A call touches the keys that it names and no others, whatever it answers: a write that
breaks off at the end of the clock leaves the keys of the later writes alone as well.
Beside this frame stand the effects of the single writes that sessions are made of, and
what can be read at a key: a text until its expiry time, and nothing after it.

Entries that have expired may still stand in the table, and everything here is about the table with
them.  So the frame is an equation of entries and not only of what counts; it holds for calls that
are refused or break off, too.

## Main results

* `CacheCall.keys`: the keys that a call is about.
* `live?_eq_ite`, `live?_insert_self`: what can be read at a key.
* `getElem?_perform`: a call leaves every key alone that it does not name.
* `perform_remove`, `perform_anyMember`, `mem_membersAt_addMembers`: the calls whose effect is said
  key by key.
* `isAvailable_perform`: no call changes whether the cache answers.
-/

namespace AccountAccess

/-! ## What a call is about -/

/-- The key that a write is about. -/
def CacheWrite.key : CacheWrite → String
  | setText key _ _ | remove key | addMembers key _ => key

/-- The keys that a call is about. -/
def CacheCall.keys : CacheCall → List String
  | get key | set key _ _ | swap key _ _ | anyMember key _ | count key _ => [key]
  | remove keys => keys
  | write writes => writes.map CacheWrite.key

/-- A text that expires. -/
abbrev CacheEntry.textUntil (value : String) (deadline : Nat) : CacheEntry :=
  ⟨.text value, some deadline⟩

/-! ## Expiry times -/

theorem expiry?_eq_some {now : Nat} {ttl : UInt64} (h : now / 1000 + ttl.toNat < clockEnd) :
    expiry? now ttl = some (now + 1000 * ttl.toNat) :=
  if_pos h

theorem expiry?_eq_none {now : Nat} {ttl : UInt64} (h : clockEnd ≤ now / 1000 + ttl.toNat) :
    expiry? now ttl = none :=
  if_neg (Nat.not_lt_of_le h)

/-! ## What can be read at a key -/

namespace CacheTable

theorem live?_eq_none {table : CacheTable} {now : Nat} {key : String} (h : table[key]? = none) :
    table.live? now key = none := by
  rw [live?, h, Option.filter_none]

theorem live?_eq_ite {table : CacheTable} {now : Nat} {key value : String} {deadline : Nat}
    (h : table[key]? = some (.textUntil value deadline)) :
    table.live? now key = if now < deadline then some (.textUntil value deadline) else none := by
  rw [live?, h, Option.filter_some]
  simp only [CacheEntry.isLive, decide_eq_true_eq]

theorem live?_insert_self {table : CacheTable} {now : Nat} {key : String} {entry : CacheEntry}
    (h : entry.isLive now = true) :
    CacheTable.live? (table.insert key entry) now key = some entry := by
  rw [live?, Std.ExtTreeMap.getElem?_insert_self, Option.filter_some, if_pos h]

theorem live?_congr {table table' : CacheTable} {now : Nat} {key : String}
    (h : table'[key]? = table[key]?) : table'.live? now key = table.live? now key := by
  rw [live?, live?, h]

end CacheTable

/-! ## Other keys are left alone -/

namespace CacheTable

theorem getElem?_insert_of_ne {table : CacheTable} {key other : String} {entry : CacheEntry}
    (h : other ≠ key) : (table.insert key entry)[other]? = table[other]? := by
  rw [Std.ExtTreeMap.getElem?_insert, if_neg]
  rw [Std.compare_eq_iff_eq]
  exact h.symm

theorem getElem?_erase_of_ne {table : CacheTable} {key other : String} (h : other ≠ key) :
    (table.erase key)[other]? = table[other]? := by
  rw [Std.ExtTreeMap.getElem?_erase, if_neg]
  rw [Std.compare_eq_iff_eq]
  exact h.symm

/-- A write leaves every other key alone. -/
theorem getElem?_write? {table table' : CacheTable} {now : Nat} {write : CacheWrite}
    {key : String} (h : table.write? now write = some table') (hkey : key ≠ write.key) :
    table'[key]? = table[key]? := by
  cases write with
  | setText k value ttl =>
    obtain ⟨at_, -, rfl⟩ := Option.map_eq_some_iff.1 h
    exact getElem?_insert_of_ne hkey
  | remove k =>
    rw [← Option.some.inj h]
    exact getElem?_erase_of_ne hkey
  | addMembers k members =>
    rw [write?] at h
    split at h
    · rw [Option.some.inj h]
    · split at h
      all_goals
        rw [← Option.some.inj h]
        exact getElem?_insert_of_ne hkey

/-- Writes leave every key alone that none of them is about. -/
theorem getElem?_writeAll {table : CacheTable} {now : Nat} {writes : List CacheWrite}
    {key : String} (h : key ∉ writes.map CacheWrite.key) :
    (table.writeAll now writes).2[key]? = table[key]? := by
  induction writes generalizing table with
  | nil => rfl
  | cons write writes ih =>
    rw [List.map_cons, List.mem_cons, not_or] at h
    rw [writeAll]
    split
    · rename_i table' hwrite
      rw [ih h.2, getElem?_write? hwrite h.1]
    · rfl

end CacheTable

namespace MemoryCache

/-- **A call leaves every key alone that it does not name.** -/
theorem getElem?_perform (cache : MemoryCache) (now : Nat) (call : CacheCall) {key : String}
    (h : key ∉ call.keys) : (cache.perform now call).2.entries[key]? = cache.entries[key]? := by
  cases call with
  | get k => rfl
  | anyMember k members => rfl
  | set k value ttl =>
    have h : key ∉ [CacheWrite.setText k value ttl].map CacheWrite.key := h
    exact CacheTable.getElem?_writeAll h
  | remove keys =>
    refine CacheTable.getElem?_writeAll ?_
    rw [List.map_map]
    exact (List.map_id keys).symm ▸ h
  | write writes => exact CacheTable.getElem?_writeAll h
  | swap k value ttl =>
    have hk : key ≠ (CacheWrite.setText k value ttl).key := fun hk => h (List.mem_singleton.2 hk)
    simp only [perform]
    split
    · split
      · exact CacheTable.getElem?_write? ‹_› hk
      · rfl
    · split
      · exact CacheTable.getElem?_write? ‹_› hk
      · rfl
    · rfl
  | count k window =>
    have hk : key ≠ k := fun hk => h (List.mem_singleton.2 hk)
    have hinsert : ∀ entry : CacheEntry,
        (cache.entries.insert k entry)[key]? = cache.entries[key]? :=
      fun _ => CacheTable.getElem?_insert_of_ne hk
    simp only [perform]
    split
    · split
      · split <;> exact hinsert _
      · exact hinsert _
    · split
      · split <;> exact hinsert _
      · exact hinsert _
    · rfl

/-! ## The effect of single calls -/

/-- **Removing keys** empties their places and no other. -/
theorem perform_remove (cache : MemoryCache) (now : Nat) (keys : List String) :
    ∃ entries : CacheTable,
      cache.perform now (.remove keys) = (some (.ok ()), { cache with entries }) ∧
      ∀ key : String, entries[key]? = if key ∈ keys then none else cache.entries[key]? := by
  have hwrites : ∀ table : CacheTable, ∃ entries : CacheTable,
      table.writeAll now (keys.map .remove) = (true, entries) ∧
      ∀ key : String, entries[key]? = if key ∈ keys then none else table[key]? := by
    induction keys with
    | nil => exact fun table => ⟨table, rfl, fun key => (if_neg List.not_mem_nil).symm⟩
    | cons removed keys ih =>
      intro table
      obtain ⟨entries, hentries, hheld⟩ := ih (table.erase removed)
      refine ⟨entries, hentries, fun key => ?_⟩
      rw [hheld]
      by_cases hkey : key = removed
      · subst hkey
        simp
      · rw [CacheTable.getElem?_erase_of_ne hkey]
        simp [hkey]
  obtain ⟨entries, hentries, hheld⟩ := hwrites cache.entries
  refine ⟨entries, ?_, hheld⟩
  simp only [perform, writeAll, hentries]
  rfl

/-- **Asking for members** changes nothing, and finds one exactly if it is in the set. -/
theorem perform_anyMember (cache : MemoryCache) (now : Nat) (key : String)
    (members : List String) :
    ∃ found, cache.perform now (.anyMember key members) = (some (.ok found), cache) ∧
      (found = true ↔ ∃ code ∈ members, code ∈ cache.membersAt now key) := by
  refine ⟨_, rfl, ?_⟩
  rw [membersAt]
  rcases cache.entries.live? now key with _ | ⟨value, expiresAt⟩
  · simp
  · cases value with
    | members set => simp [List.any_eq_true, Std.ExtTreeSet.mem_toList]
    | text value => simp
    | counter count => simp

/-- **Adding members** makes them members beside those that are there. -/
theorem mem_membersAt_addMembers (cache : MemoryCache) (now : Nat) (key : String)
    (members : List String) {code : String} :
    code ∈ (cache.perform now (.write [.addMembers key members])).2.membersAt now key ↔
      code ∈ members ∨ code ∈ cache.membersAt now key := by
  by_cases hnone : members = []
  · subst hnone
    simp [perform, writeAll, CacheTable.writeAll, CacheTable.write?]
  · simp only [perform, writeAll, CacheTable.writeAll, CacheTable.write?, if_neg hnone]
    rw [membersAt, membersAt]
    rcases hlive : cache.entries.live? now key with _ | ⟨value | set | count, expiresAt⟩
    case some.members =>
      have hisLive : CacheEntry.isLive now ⟨.members (set.insertMany members), expiresAt⟩ = true :=
        (Option.filter_eq_some_iff.1 hlive).2
      dsimp only
      rw [CacheTable.live?_insert_self hisLive]
      simp [Std.ExtTreeSet.mem_toList, Std.ExtTreeSet.mem_insertMany_list, or_comm]
    -- Nothing is a member of anything but a set.
    all_goals
      dsimp only
      rw [CacheTable.live?_insert_self rfl]
      simp [Std.ExtTreeSet.mem_toList, Std.ExtTreeSet.mem_insertMany_list]

/-- No call changes whether the cache answers. -/
@[simp] theorem isAvailable_perform (cache : MemoryCache) (now : Nat) (call : CacheCall) :
    (cache.perform now call).2.isAvailable = cache.isAvailable := by
  cases call with
  | swap k value ttl =>
    simp only [perform]
    split
    · split <;> rfl
    · split <;> rfl
    · rfl
  | count k window =>
    simp only [perform]
    split
    · split
      · split <;> rfl
      · rfl
    · split
      · split <;> rfl
      · rfl
    · rfl
  | _ => rfl

end MemoryCache
end AccountAccess
