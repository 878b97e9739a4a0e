import AccountAccess.Proofs.Grant.Derived
import AccountAccess.Proofs.Service.Outage
import Mathlib.Data.List.Sort

/-!
# The derived list is determined by its members

A refresh sorts the codes that it was told and drops those that stand twice.  What is left is
strictly increasing, and there is only one strictly increasing list with given members.  So the
order in which a store goes through its tables, and how often it comes across a code, leave no
trace in the list; nor does anything that `Derivable` does not speak of, such as the rows of
permissions.

The tables in memory have an order of their own, which a hash table or a server would not have.
That nothing rests on it is said by taking any backend that answers the two questions with the right
members (`Lists`), whatever its state is made of.

## Main results

* `pairwise_sortedUnique`: the sorted list is strictly increasing.
* `eq_derivedCodes_iff`: the derived list is the strictly increasing list of the derivable codes.
* `SameRoles.derivedCodes_eq`: it depends on the tables of roles, resources and links only.
* `sameRoles_run`: nothing that the service does changes these tables.
* `run_derive_of_lists`: any backend that lists the tables gives the same list; the store in memory
  is one of them (`lists_answer`).
-/

namespace AccountAccess
namespace Grant

variable {store other : MemoryStore} {account : Account} {code : String}

/-! ## Strictly increasing lists -/

/-- Dropping repeats of a sorted list leaves a strictly increasing one: the head of what is left is
its least member, so a member that is not equal to the head is smaller than all. -/
theorem pairwise_withoutRepeats {sorted : List String} (h : sorted.Pairwise (· ≤ ·)) :
    (withoutRepeats sorted).Pairwise (· < ·) := by
  induction sorted with
  | nil => exact List.Pairwise.nil
  | cons first rest ih =>
    obtain ⟨hfirst, hrest⟩ := List.pairwise_cons.1 h
    have hleft := ih hrest
    rw [withoutRepeats_cons]
    split
    · exact hleft
    · rename_i hhead
      refine List.pairwise_cons.2 ⟨fun later hlater => ?_, hleft⟩
      rcases hrepeats : withoutRepeats rest with _ | ⟨least, others⟩
      · rw [hrepeats] at hlater
        exact absurd hlater List.not_mem_nil
      · rw [hrepeats] at hlater hleft hhead
        have hne : first ≠ least := fun heq => hhead (by rw [heq]; rfl)
        have hmem : least ∈ rest :=
          mem_withoutRepeats_iff.1 (hrepeats ▸ List.mem_cons_self)
        have hless : first < least :=
          String.not_le.1 fun hle => hne (String.le_antisymm (hfirst least hmem) hle)
        rcases List.mem_cons.1 hlater with rfl | hlater
        · exact hless
        · exact String.lt_trans hless ((List.pairwise_cons.1 hleft).1 later hlater)

/-- **The sorted list is strictly increasing.** -/
theorem pairwise_sortedUnique (codes : List String) : (sortedUnique codes).Pairwise (· < ·) := by
  rw [sortedUnique_eq]
  refine pairwise_withoutRepeats ?_
  have htrans : ∀ first second third : String, decide (first ≤ second) = true →
      decide (second ≤ third) = true → decide (first ≤ third) = true := by
    intro first second third h h'
    exact decide_eq_true (String.le_trans (of_decide_eq_true h) (of_decide_eq_true h'))
  have htotal : ∀ first second : String,
      (decide (first ≤ second) || decide (second ≤ first)) = true := by
    intro first second
    simpa using String.le_total first second
  exact (List.pairwise_mergeSort htrans htotal codes).imp of_decide_eq_true

theorem eq_of_pairwise {codes others : List String} (h : codes.Pairwise (· < ·))
    (hothers : others.Pairwise (· < ·)) (hmem : ∀ code, code ∈ codes ↔ code ∈ others) :
    codes = others := by
  have hirreflexive : Std.Irrefl (α := String) (· < ·) := ⟨String.lt_irrefl⟩
  have hantisymmetric : Std.Antisymm (α := String) (· < ·) :=
    ⟨fun first second hlt hgt => absurd (String.lt_trans hlt hgt) (String.lt_irrefl first)⟩
  exact h.eq_of_mem_iff hothers hmem

theorem pairwise_derivedCodes (store : MemoryStore) (account : Account) :
    (derivedCodes store account).Pairwise (· < ·) := by
  rw [derivedCodes]
  split
  · exact List.pairwise_singleton _ _
  · exact pairwise_sortedUnique _

/-- **The derived list is the strictly increasing list of the derivable codes.** -/
theorem eq_derivedCodes_iff {codes : List String} :
    codes = derivedCodes store account ↔
      codes.Pairwise (· < ·) ∧ ∀ code, code ∈ codes ↔ Derivable store account code := by
  constructor
  · rintro rfl
    exact ⟨pairwise_derivedCodes store account, fun _ => mem_derivedCodes_iff⟩
  · rintro ⟨hincreasing, hmem⟩
    refine eq_of_pairwise hincreasing (pairwise_derivedCodes store account) fun code => ?_
    rw [hmem code, mem_derivedCodes_iff]

/-! ## What the list depends on -/

/-- The tables that say which role has which resources, and what these carry, are the same; those
of accounts and of permissions may differ. -/
structure SameRoles (store other : MemoryStore) : Prop where
  roles : other.roles = store.roles
  resources : other.resources = store.resources
  resourceRoles : other.resourceRoles = store.resourceRoles
  resourceCodes : other.resourceCodes = store.resourceCodes

theorem SameRoles.refl (store : MemoryStore) : SameRoles store store :=
  ⟨rfl, rfl, rfl, rfl⟩

theorem SameRoles.trans {third : MemoryStore} (h : SameRoles store other)
    (h' : SameRoles other third) : SameRoles store third :=
  ⟨h'.roles.trans h.roles, h'.resources.trans h.resources,
    h'.resourceRoles.trans h.resourceRoles, h'.resourceCodes.trans h.resourceCodes⟩

theorem SameRoles.derivable_iff (h : SameRoles store other) :
    Derivable other account code ↔ Derivable store account code := by
  simp only [Derivable, MemoryStore.RoleHas, h.roles, h.resources, h.resourceRoles,
    h.resourceCodes]

/-- **The derived list depends on these tables only.** -/
theorem SameRoles.derivedCodes_eq (h : SameRoles store other) :
    derivedCodes other account = derivedCodes store account :=
  eq_derivedCodes_iff.2 ⟨pairwise_derivedCodes other account, fun _ => by
    rw [mem_derivedCodes_iff, h.derivable_iff]⟩

/-- No call of the service changes these tables. -/
theorem sameRoles_answer (world : World) (call : ServiceCall) :
    SameRoles world.store (World.answer call world).2.store := by
  cases call with
  | store call =>
    obtain ⟨faults, tables, hworld, rfl | rfl⟩ := World.answer_store_world world call
    · rw [hworld]
      exact .refl _
    · rw [hworld]
      cases call with
      | _ => exact ⟨rfl, rfl, rfl, rfl⟩
  | cache call =>
    rw [World.store_answer_cache]
    exact .refl _
  | _ => exact .refl _

/-- **Nothing that the service does changes which codes are derivable.** -/
theorem sameRoles_run {α : Type} (procedure : Procedure α) (world : World) :
    SameRoles world.store (world.run procedure).2.store :=
  Dialogue.run_keeps (fun after => SameRoles world.store after.store)
    (fun call between h => h.trans (sameRoles_answer between call)) procedure (.refl _)

/-! ## Any backend that lists the tables -/

/-- A backend answers the two questions of a refresh with what the tables of a store hold, in any
order and with any repetitions. -/
structure Lists {σ : Type} (handler : Handler serviceInterface σ) (store : MemoryStore) : Prop where
  resources : ∀ role includeUnassignable state, ∃ resources,
    (handler (.store (.resourcesOf role includeUnassignable)) state).1 =
      .finished (.ok resources) ∧
    ∀ id, id ∈ resources ↔ store.RoleHas role includeUnassignable id
  codes : ∀ resources state, ∃ codes,
    (handler (.store (.codesOf resources)) state).1 = .finished (.ok codes) ∧
    ∀ code, code ∈ codes ↔ ∃ id ∈ resources, code ∈ store.resourceCodes.getD id ∅

theorem lists_answer (store : MemoryStore) :
    Lists (fun call (state : Unit) => match call with
      | .store call => (.finished (.ok (store.answer call).1), state)
      | _ => (.aborted, state)) store :=
  ⟨fun _ _ _ => ⟨_, rfl, fun _ => MemoryStore.mem_resourcesOf_iff⟩,
    fun _ _ => ⟨_, rfl, fun _ => MemoryStore.mem_codesOf_iff⟩⟩

/-- **However the tables are gone through, the same list is derived.** -/
theorem run_derive_of_lists {σ : Type} {handler : Handler serviceInterface σ}
    (h : Lists handler store) (account : Account) (state : σ) :
    ((derive account).run handler state).1 = .finished (.ok (derivedCodes store account)) := by
  rw [derive]
  cases hadmin : account.isSuperAdmin with
  | true =>
    rw [if_pos rfl, derivedCodes, if_pos hadmin]
    rfl
  | false =>
    obtain ⟨resources, hresources, hlisted⟩ := h.resources account.roleId account.isStaff state
    rcases hasked : handler (.store (.resourcesOf account.roleId account.isStaff)) state with
      ⟨answer, asked⟩
    rw [hasked] at hresources
    obtain rfl : answer = .finished (.ok resources) := hresources
    obtain ⟨codes, hcodes, hcarried⟩ := h.codes resources asked
    have hmem : ∀ code, code ∈ codes ↔ Derivable store account code := by
      intro code
      rw [hcarried code, derivable_iff hadmin]
      simp only [hlisted]
    have hderived : sortedUnique codes = derivedCodes store account :=
      eq_derivedCodes_iff.2 ⟨pairwise_sortedUnique codes, fun code => by
        rw [mem_sortedUnique_iff, hmem code]⟩
    rw [if_neg (by simp)]
    show (Dialogue.run handler (.ask (.store (.resourcesOf account.roleId account.isStaff)) _)
      state).1 = _
    rw [Dialogue.run, hasked]
    cases resources with
    | nil =>
      -- without resources the second question is not asked, and would bring nothing
      have hnone : derivedCodes store account = [] := by
        rw [List.eq_nil_iff_forall_not_mem]
        intro code hcode
        rw [mem_derivedCodes_iff, ← hmem code, hcarried code] at hcode
        simp at hcode
      rw [hnone]
      rfl
    | cons resource rest =>
      rcases hanswer : handler (.store (.codesOf (resource :: rest))) asked with ⟨answer, after⟩
      rw [hanswer] at hcodes
      obtain rfl : answer = .finished (.ok codes) := hcodes
      show (Dialogue.run handler (.ask (.store (.codesOf (resource :: rest))) _) asked).1 = _
      rw [Dialogue.run, hanswer, ← hderived]
      rfl

end Grant
end AccountAccess
