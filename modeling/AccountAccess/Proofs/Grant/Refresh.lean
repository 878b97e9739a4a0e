import AccountAccess.Proofs.Cache.Key
import AccountAccess.Proofs.Grant.Derived
import AccountAccess.Proofs.Service.Calm

/-!
# Deriving and writing granted codes, call by call

A refresh asks the store which resources the role gives, asks it for the codes that these
carry, and writes the codes in the place of those written before.  A super administrator is
granted everything and the store is not asked.  The store can change between the two
questions and before the writing, so what is left of a refresh after each call gets a name
here.

The writing is one call.  In calm surroundings it leaves a set of exactly the codes that it
was given, and nothing at all if it was given none.  A refresh that nobody else's calls come
between therefore leaves the codes that it derives.

## Main definitions and results

* `collect`, `rewrite`: a refresh that knows the resources, and one that has derived the codes.
* `refresh_eq`: a refresh, one call after the other.
* `writes`, `entryOf`: the writes that replace the codes, and what stands for the codes then.
* `perform_writes`, `answer_writes`: writing codes changes one entry, whatever stood there.
* `run_refresh`: a refresh in calm surroundings writes the codes that it derives.
-/

namespace AccountAccess
namespace Grant

/-- The key of the codes that an account is granted. -/
abbrev grantsKey (account : Int64) : String := (CacheKey.grants account).text

/-! ## The calls of a refresh -/

/-- The writes that put codes in the place of those written before. -/
def writes (account : Int64) (codes : List String) : List CacheWrite :=
  .remove (grantsKey account) ::
    if codes = [] then [] else [.addMembers (grantsKey account) codes]

/-- A refresh that has derived the codes: they are written. -/
def rewrite (account : Int64) (codes : List String) :
    Procedure (Except RefreshError (List String)) :=
  .ask (.cache (.write (writes account codes))) fun (answer : Except CacheError Unit) =>
    match answer with
    | .error e => .done (.error (.cache e))
    | .ok () => .done (.ok codes)

/-- A refresh that knows the resources: it asks for their codes, if there are any. -/
def collect (account : Int64) (resources : List Int64) :
    Procedure (Except RefreshError (List String)) :=
  if resources = [] then rewrite account []
  else .ask (.store (.codesOf resources)) fun (answer : Except StoreError (List String)) =>
    match answer with
    | .error e => .done (.error (.store e))
    | .ok codes => rewrite account (sortedUnique codes)

theorem rewrite_eq (account : Int64) (codes : List String) :
    (replace account codes >>= fun written =>
      match written with
      | .error e => .done (.error (.cache e))
      | .ok () => .done (.ok codes)) = rewrite account codes := by
  refine congrArg (Dialogue.ask _) (funext fun answer => ?_)
  rcases answer with e | _
  · rfl
  · rfl

/-- **A refresh, one call after the other.** -/
theorem refresh_eq (account : Account) :
    refresh account =
      if account.isSuperAdmin then rewrite account.id [everything]
      else .ask (.store (.resourcesOf account.roleId account.isStaff))
        fun (answer : Except StoreError (List Int64)) =>
          match answer with
          | .error e => .done (.error (.store e))
          | .ok resources => collect account.id resources := by
  by_cases hadmin : account.isSuperAdmin = true
  · rw [if_pos hadmin, refresh, derive, if_pos hadmin]
    exact rewrite_eq account.id [everything]
  · rw [if_neg hadmin, refresh, derive, if_neg hadmin]
    refine congrArg (Dialogue.ask _) (funext fun answer => ?_)
    rcases answer with e | _ | ⟨first, rest⟩
    · rfl
    · exact rewrite_eq account.id []
    · refine congrArg (Dialogue.ask _) (funext fun answer => ?_)
      rcases answer with e | codes
      · rfl
      · exact rewrite_eq account.id (sortedUnique codes)

/-! ## The effect of the writing -/

/-- What stands for some codes: a set that does not expire, or nothing. -/
def entryOf (codes : List String) : Option CacheEntry :=
  if codes = [] then none
  else some ⟨.members ((∅ : Std.ExtTreeSet String).insertMany codes), none⟩

/-- The writing of codes as the cache carries it out: whatever stood at their key before, it is the
set of the codes afterwards, or nothing if there are none. -/
theorem perform_writes (cache : MemoryCache) (now : Nat) (account : Int64) (codes : List String) :
    ∃ entries : CacheTable, cache.perform now (.write (writes account codes)) =
        (some (.ok ()), { cache with entries }) ∧
      (fun key => entries[key]?) = Function.update (fun key => cache.entries[key]?)
        (grantsKey account) (entryOf codes) := by
  have herased : (fun key => (cache.entries.erase (grantsKey account))[key]?) =
      Function.update (fun key => cache.entries[key]?) (grantsKey account) none := by
    funext key
    by_cases hkey : key = grantsKey account
    · rw [hkey, Function.update_self]
      exact Std.ExtTreeMap.getElem?_erase_self
    · rw [Function.update_of_ne hkey]
      exact CacheTable.getElem?_erase_of_ne hkey
  by_cases hcodes : codes = []
  · refine ⟨cache.entries.erase (grantsKey account), ?_, by rw [entryOf, if_pos hcodes, herased]⟩
    simp only [MemoryCache.perform, MemoryCache.writeAll, writes, if_pos hcodes,
      CacheTable.writeAll, CacheTable.write?]
    rfl
  · have hgone : CacheTable.live? (cache.entries.erase (grantsKey account)) now
        (grantsKey account) = none :=
      CacheTable.live?_eq_none Std.ExtTreeMap.getElem?_erase_self
    refine ⟨(cache.entries.erase (grantsKey account)).insert (grantsKey account)
      ⟨.members ((∅ : Std.ExtTreeSet String).insertMany codes), none⟩, ?_, ?_⟩
    · simp only [MemoryCache.perform, MemoryCache.writeAll, writes, if_neg hcodes,
        CacheTable.writeAll, CacheTable.write?, hgone]
      rfl
    · funext key
      rw [entryOf, if_neg hcodes]
      by_cases hkey : key = grantsKey account
      · rw [hkey, Function.update_self]
        exact Std.ExtTreeMap.getElem?_insert_self
      · rw [Function.update_of_ne hkey, CacheTable.getElem?_insert_of_ne hkey]
        exact CacheTable.getElem?_erase_of_ne hkey

/-- **Writing codes in calm surroundings** changes one entry. -/
theorem answer_writes {world : World} (h : world.Calm) (account : Int64) (codes : List String) :
    ∃ after, World.answer (.cache (.write (writes account codes))) world =
        (.finished (.ok ()), after) ∧
      World.Alters world (grantsKey account) (entryOf codes) after := by
  obtain ⟨entries, hperform, hentries⟩ := perform_writes world.cache world.clock account codes
  refine ⟨world.stored (.write (writes account codes)) entries, ?_,
    ⟨h.no_fault, h.available⟩, rfl, hentries⟩
  rw [h.answer_eq, hperform]
  rfl

theorem mem_membersAt_iff {world : World} {account : Int64} {codes : List String}
    (h : world.entry (grantsKey account) = entryOf codes) {code : String} :
    code ∈ world.cache.membersAt world.clock (grantsKey account) ↔ code ∈ codes := by
  have hentry : world.cache.entries[grantsKey account]? = entryOf codes := h
  rw [MemoryCache.membersAt, CacheTable.live?, hentry, entryOf]
  by_cases hcodes : codes = []
  · simp [hcodes]
  · rw [if_neg hcodes, Option.filter_some, if_pos (by rfl)]
    simp [Std.ExtTreeSet.mem_insertMany_list]

theorem containsKey_iff {world : World} {account : Int64} {codes : List String}
    (h : world.entry (grantsKey account) = entryOf codes) :
    world.cache.containsKey world.clock (grantsKey account) = true ↔ codes ≠ [] := by
  have hentry : world.cache.entries[grantsKey account]? = entryOf codes := h
  rw [MemoryCache.containsKey, CacheTable.live?, hentry, entryOf]
  by_cases hcodes : codes = []
  · simp [hcodes]
  · simp [hcodes, CacheEntry.isLive]

/-! ## The effect of a refresh -/

theorem run_rewrite {world : World} (h : world.Calm) (account : Int64) (codes : List String) :
    ∃ after, world.run (rewrite account codes) = (.finished (.ok codes), after) ∧
      World.Alters world (grantsKey account) (entryOf codes) after := by
  obtain ⟨after, hanswer, halters⟩ := answer_writes h account codes
  refine ⟨after, ?_, halters⟩
  rw [World.run, rewrite, Dialogue.run, hanswer]
  rfl

/-- A refresh that knows the resources. -/
theorem run_collect {world : World} (h : world.Calm) {account : Account}
    (hadmin : account.isSuperAdmin = false) :
    ∃ after, world.run (collect account.id
        (world.store.resourcesOf account.roleId account.isStaff)) =
        (.finished (.ok (derivedCodes world.store account)), after) ∧
      World.Alters world (grantsKey account.id) (entryOf (derivedCodes world.store account))
        after := by
  have hderived : derivedCodes world.store account = grantsOf world.store world.store account :=
    if_neg (by simp [hadmin])
  rw [hderived, collect]
  by_cases hnone : world.store.resourcesOf account.roleId account.isStaff = []
  · rw [if_pos hnone, grantsOf_eq_nil hnone]
    exact run_rewrite h account.id []
  · rw [if_neg hnone, World.run, Dialogue.run, h.answer_store]
    obtain ⟨after, hrun, halters⟩ := run_rewrite
      (h.noted (.store (.codesOf (world.store.resourcesOf account.roleId account.isStaff))))
      account.id (grantsOf world.store world.store account)
    exact ⟨after, hrun, halters.calm, halters.clock, halters.entry_eq⟩

/-- **A refresh in calm surroundings** writes the codes that it derives. -/
theorem run_refresh {world : World} (h : world.Calm) (account : Account) :
    ∃ after, world.run (refresh account) =
        (.finished (.ok (derivedCodes world.store account)), after) ∧
      World.Alters world (grantsKey account.id) (entryOf (derivedCodes world.store account))
        after := by
  rw [refresh_eq]
  cases hadmin : account.isSuperAdmin with
  | true =>
    rw [if_pos rfl, derivedCodes, if_pos hadmin]
    exact run_rewrite h account.id [everything]
  | false =>
    rw [if_neg (by simp), World.run, Dialogue.run, h.answer_store]
    obtain ⟨after, hrun, halters⟩ := run_collect
      (h.noted (.store (.resourcesOf account.roleId account.isStaff))) hadmin
    exact ⟨after, hrun, halters.calm, halters.clock, halters.entry_eq⟩

end Grant
end AccountAccess
