import AccountAccess.Grant.Codes
import AccountAccess.Store.Memory
import Mathlib.Data.List.Basic

/-!
# Which codes are derived

An account is granted the codes of its role.  `Derivable` says so of the tables directly: the
role is there, and an enabled resource that is linked to it, and that staff may have or
anybody, carries the code.  A refresh derives a list instead, in two questions to the store
and a sort, and the list holds the derivable codes.

The two questions can be answered by different stores, if the store is edited between them.
`grantsOf` therefore takes a store for each question.  Taking a code away from a resource, or
disabling a resource, changes what one of the two answers and nothing in the other.

## Main definitions and results

* `MemoryStore.RoleHas`: a role has a resource, said with the tables of roles, resources and links.
* `mem_resourcesOf_iff`, `mem_codesOf_iff`: what the two questions are answered with.
* `Derivable`: a code follows from the tables for an account.
* `grantsOf`, `derivedCodes`: what a refresh derives from two stores, and from one.
* `mem_derivedCodes_iff`: a refresh derives the derivable codes.

How the list is ordered does not come in here; it is only asked which codes are in it.
-/

namespace AccountAccess

namespace MemoryStore

variable {store : MemoryStore} {role id : Int64} {includeUnassignable : Bool} {code : String}

/-! ## The two questions -/

/-- A role has a resource: the role is there, and the resource is enabled, may be had and is
linked to the role. -/
def RoleHas (store : MemoryStore) (role : Int64) (includeUnassignable : Bool) (id : Int64) : Prop :=
  (∃ found, store.roles[role]? = some found ∧ found.deletedAt = none) ∧
    ∃ (key : Int64) (resource : Resource), store.resources[key]? = some resource ∧
      resource.id = id ∧ resource.enabled = true ∧
      (includeUnassignable = true ∨ resource.assignable = true) ∧
      role ∈ store.resourceRoles.getD id ∅

theorem hasRole_iff :
    store.hasRole role = true ↔
      ∃ found, store.roles[role]? = some found ∧ found.deletedAt = none := by
  simp [hasRole, Option.any_eq_true]

theorem gives_iff {resource : Resource} : store.gives role includeUnassignable resource = true ↔
    resource.enabled = true ∧ (includeUnassignable = true ∨ resource.assignable = true) ∧
      role ∈ store.resourceRoles.getD resource.id ∅ := by
  simp [gives, and_assoc]

/-- The resources that are listed for a role are those that it has. -/
theorem mem_resourcesOf_iff :
    id ∈ store.resourcesOf role includeUnassignable ↔
      store.RoleHas role includeUnassignable id := by
  rw [resourcesOf]
  by_cases hrole : store.hasRole role = true
  · rw [if_pos hrole, List.mem_map]
    constructor
    · rintro ⟨resource, hmem, rfl⟩
      obtain ⟨hmem, hgives⟩ := List.mem_filter.1 hmem
      obtain ⟨⟨key, found⟩, hfound, rfl⟩ := List.mem_map.1 hmem
      have hheld := Std.ExtTreeMap.mem_toList_iff_getElem?_eq_some.1 hfound
      exact ⟨hasRole_iff.1 hrole, key, found, hheld, rfl, gives_iff.1 hgives⟩
    · rintro ⟨-, key, resource, hheld, rfl, hgives⟩
      refine ⟨resource, List.mem_filter.2 ⟨List.mem_map.2 ⟨(key, resource), ?_, rfl⟩, ?_⟩, rfl⟩
      · exact Std.ExtTreeMap.mem_toList_iff_getElem?_eq_some.2 hheld
      · exact gives_iff.2 hgives
  · rw [if_neg hrole]
    refine iff_of_false List.not_mem_nil ?_
    rintro ⟨hfound, -⟩
    exact hrole (hasRole_iff.2 hfound)

/-- The codes that are listed for resources are those that one of them carries. -/
theorem mem_codesOf_iff {resources : List Int64} :
    code ∈ store.codesOf resources ↔ ∃ id ∈ resources, code ∈ store.resourceCodes.getD id ∅ := by
  have hfold : ∀ codes : Std.ExtTreeSet String,
      code ∈ resources.foldl (fun (codes : Std.ExtTreeSet String) id =>
        codes.insertMany (store.resourceCodes.getD id ∅).toList) codes ↔
        code ∈ codes ∨ ∃ id ∈ resources, code ∈ store.resourceCodes.getD id ∅ := by
    induction resources with
    | nil => simp
    | cons id resources ih =>
      intro codes
      rw [List.foldl_cons, ih, Std.ExtTreeSet.mem_insertMany_list, List.contains_iff_mem,
        Std.ExtTreeSet.mem_toList, or_assoc, List.exists_mem_cons_iff]
  rw [codesOf, Std.ExtTreeSet.mem_toList, hfold]
  simp

end MemoryStore

namespace Grant

variable {store listing carrying : MemoryStore} {account : Account} {code : String}

/-! ## The derived list -/

/-- A code follows from the tables for an account: everything for a super administrator, and
for anybody else what a resource of the role carries. -/
def Derivable (store : MemoryStore) (account : Account) (code : String) : Prop :=
  if account.isSuperAdmin then code = "*"
  else ∃ id, store.RoleHas account.roleId account.isStaff id ∧
    code ∈ store.resourceCodes.getD id ∅

theorem derivable_iff (hadmin : account.isSuperAdmin = false) :
    Derivable store account code ↔ ∃ id, store.RoleHas account.roleId account.isStaff id ∧
      code ∈ store.resourceCodes.getD id ∅ := by
  rw [Derivable, if_neg (by simp [hadmin])]

/-- A list without the members that stand right before an equal one. -/
def withoutRepeats (sorted : List String) : List String :=
  sorted.foldr (fun code rest => if rest.head? = some code then rest else code :: rest) []

theorem sortedUnique_eq (codes : List String) :
    sortedUnique codes = withoutRepeats (codes.mergeSort (· ≤ ·)) := rfl

theorem withoutRepeats_cons (first : String) (rest : List String) :
    withoutRepeats (first :: rest) = if (withoutRepeats rest).head? = some first
      then withoutRepeats rest else first :: withoutRepeats rest := rfl

theorem mem_withoutRepeats_iff {sorted : List String} :
    code ∈ withoutRepeats sorted ↔ code ∈ sorted := by
  induction sorted with
  | nil => exact Iff.rfl
  | cons first rest ih =>
    rw [withoutRepeats_cons, List.mem_cons]
    split
    · -- the first one is dropped because it is the head of the rest
      rename_i hhead
      rw [ih, iff_or_self]
      rintro rfl
      exact ih.1 (List.mem_of_mem_head? (Option.mem_def.2 hhead))
    · rw [List.mem_cons, ih]

theorem mem_sortedUnique_iff {codes : List String} : code ∈ sortedUnique codes ↔ code ∈ codes := by
  rw [sortedUnique_eq, mem_withoutRepeats_iff, List.mem_mergeSort]

/-- The codes that a refresh derives for an account of a role, where one store lists the
resources and another one the codes that they carry. -/
def grantsOf (listing carrying : MemoryStore) (account : Account) : List String :=
  sortedUnique (carrying.codesOf (listing.resourcesOf account.roleId account.isStaff))

theorem mem_grantsOf_iff : code ∈ grantsOf listing carrying account ↔
    ∃ id, listing.RoleHas account.roleId account.isStaff id ∧
      code ∈ carrying.resourceCodes.getD id ∅ := by
  rw [grantsOf, mem_sortedUnique_iff, MemoryStore.mem_codesOf_iff]
  simp only [MemoryStore.mem_resourcesOf_iff]

theorem grantsOf_eq_nil (h : listing.resourcesOf account.roleId account.isStaff = []) :
    grantsOf listing carrying account = [] := by
  rw [List.eq_nil_iff_forall_not_mem]
  intro code hcode
  obtain ⟨id, hhas, -⟩ := mem_grantsOf_iff.1 hcode
  rw [← MemoryStore.mem_resourcesOf_iff, h] at hhas
  exact List.not_mem_nil hhas

/-- What a refresh derives in one store. -/
def derivedCodes (store : MemoryStore) (account : Account) : List String :=
  if account.isSuperAdmin then [everything] else grantsOf store store account

/-- **A refresh derives the derivable codes.** -/
theorem mem_derivedCodes_iff :
    code ∈ derivedCodes store account ↔ Derivable store account code := by
  rw [derivedCodes, Derivable]
  split
  · exact List.mem_singleton
  · exact mem_grantsOf_iff

end Grant
end AccountAccess
