import AccountAccess.Proofs.Grant.Following
import AccountAccess.Proofs.Store.Accounts

/-!
# When a revoked code stays revoked

An administrator takes a code away from a resource, or disables a resource, and then an
account may have lost a code.  The cache still grants it until the codes of the account are
refreshed.  A refresh that has begun before the edit knows nothing of it, and if it writes
last, it brings the code back, even after a newer refresh has removed it.

Each edit changes the answer to one of the two questions that a refresh asks: taking a code
away changes what the resources carry, and disabling one changes which are listed.  The code
is granted in the end exactly if the last writer asked that question before the edit.

## The argument

Refreshes and checks that are under way keep the state of affairs of `Following`, before the edit
and after it.  So when all are over the cache holds what the last writer derived from the two stores
that answered it, and what is left to do is one calculation: which codes are derived from two
stores of which one or both are edited (`Edit.mem_grantsOf_iff`).

## Main results

* `Edit.decisive`: the question whose answer an edit changes.
* `Edit.mem_grantsOf_iff`: a code that the edit takes away is derived exactly if the decisive
  question came before the edit.
* `run_check`: a check is allowed if and only if a code that allows the route is written.
* `revoked_allowed_iff`: the last writer decides, for any number of refreshes and any schedule.
* `revoked_allowed_overtaken`: an older refresh brings a revoked code back.
-/

namespace AccountAccess
namespace Grant

/-! ## Edits -/

/-- An edit that takes permissions away. -/
inductive Edit where
  /-- A resource no longer carries a code. -/
  | revoke (resource : Int64) (code : String)
  /-- A resource is disabled. -/
  | disable (resource : Int64)
  deriving DecidableEq, Repr

namespace Edit

/-- The store after an edit. -/
def apply (store : MemoryStore) : Edit → MemoryStore
  | revoke resource code => store.revokeCode resource code
  | disable resource => store.setResourceEnabled resource false

/-- The question whose answer an edit changes. -/
def decisive : Edit → CallKind
  | revoke .. => .storeCodesOf
  | disable _ => .storeResourcesOf

variable {store listing carrying : MemoryStore} {account : Account} {role id resource : Int64}
  {includeUnassignable : Bool} {code other : String}

theorem roleHas_revoke : (apply store (revoke resource code)).RoleHas role includeUnassignable id ↔
    store.RoleHas role includeUnassignable id := Iff.rfl

theorem resourceCodes_disable :
    (apply store (disable resource)).resourceCodes = store.resourceCodes := rfl

theorem RoleHas.of_disable
    (h : (apply store (disable resource)).RoleHas role includeUnassignable id) :
    store.RoleHas role includeUnassignable id := by
  obtain ⟨hrole, key, found, hheld, hid, henabled, hrest⟩ := h
  have hmodify : (store.resources.modify resource ({ · with enabled := false }))[key]? =
      some found := hheld
  rw [Std.ExtTreeMap.getElem?_modify] at hmodify
  split at hmodify
  · -- a disabled resource is given to nobody
    obtain ⟨former, -, rfl⟩ := Option.map_eq_some_iff.1 hmodify
    exact absurd henabled (by simp)
  · exact ⟨hrole, key, found, hmodify, hid, henabled, hrest⟩

/-- A code that is carried after one was taken away was carried before. -/
theorem mem_of_revoke
    (h : other ∈ (apply store (revoke resource code)).resourceCodes.getD id ∅) :
    other ∈ store.resourceCodes.getD id ∅ := by
  have hmodify : other ∈ (store.resourceCodes.modify resource (·.erase code)).getD id ∅ := h
  rw [Std.ExtTreeMap.getD_modify] at hmodify
  split at hmodify
  · rename_i hsame
    rw [← Std.compare_eq_iff_eq.1 hsame, Std.ExtTreeMap.getD_eq_getD_getElem?]
    cases hcodes : store.resourceCodes[resource]? with
    | none =>
      rw [hcodes] at hmodify
      exact hmodify
    | some codes =>
      rw [hcodes] at hmodify
      exact (Std.ExtTreeSet.mem_erase.1 hmodify).2
  · exact hmodify

/-- Whichever of its two questions came after the edit, a refresh derives nothing that was
not derivable before. -/
theorem derivable_of_mem (edit : Edit) (hadmin : account.isSuperAdmin = false)
    {listed collected : Bool}
    (h : code ∈ grantsOf (storeOf store (edit.apply store) listed)
      (storeOf store (edit.apply store) collected) account) : Derivable store account code := by
  obtain ⟨id, hhas, hcarries⟩ := mem_grantsOf_iff.1 h
  rw [derivable_iff hadmin]
  refine ⟨id, ?_, ?_⟩
  · cases listed with
    | true => exact hhas
    | false =>
      cases edit with
      | revoke => exact hhas
      | disable => exact RoleHas.of_disable hhas
  · cases collected with
    | true => exact hcarries
    | false =>
      cases edit with
      | revoke => exact mem_of_revoke hcarries
      | disable => exact hcarries

/-- **A code that the edit takes away is derived exactly if the decisive question came before
the edit.** -/
theorem mem_grantsOf_iff (edit : Edit) (hadmin : account.isSuperAdmin = false)
    (hbefore : Derivable store account code) (hafter : ¬Derivable (edit.apply store) account code)
    (listed collected : Bool) :
    code ∈ grantsOf (storeOf store (edit.apply store) listed)
        (storeOf store (edit.apply store) collected) account ↔
      (match edit with | revoke .. => collected | disable _ => listed) = true := by
  rw [derivable_iff hadmin] at hbefore hafter
  rw [Grant.mem_grantsOf_iff]
  cases edit with
  | revoke resource taken =>
    have hlists : ∀ id, (storeOf store (apply store (revoke resource taken)) listed).RoleHas
        account.roleId account.isStaff id ↔ store.RoleHas account.roleId account.isStaff id := by
      intro id
      cases listed with
      | true => exact Iff.rfl
      | false => exact roleHas_revoke
    simp only [hlists]
    cases collected with
    | true => exact iff_of_true hbefore rfl
    | false => exact iff_of_false hafter (by simp)
  | disable resource =>
    have hcarries : (storeOf store (apply store (disable resource)) collected).resourceCodes =
        store.resourceCodes := by
      cases collected with
      | true => rfl
      | false => exact resourceCodes_disable
    rw [hcarries]
    cases listed with
    | true => exact iff_of_true hbefore rfl
    | false => exact iff_of_false hafter (by simp)

end Edit

/-! ## Checks -/

/-- What is found among the members that stand for some codes. -/
theorem answer_anyMember_eq {world : World} (h : world.Calm) {account : Int64}
    {codes : List String} (hentry : world.entry (grantsKey account) = entryOf codes)
    (members : List String) :
    World.answer (.cache (.anyMember (grantsKey account) members)) world =
      (.finished (.ok (decide (∃ code ∈ members, code ∈ codes))),
        world.noted (.cache (.anyMember (grantsKey account) members))) := by
  have hentries : world.cache.entries[grantsKey account]? = entryOf codes := hentry
  have hperform : world.cache.perform world.clock (.anyMember (grantsKey account) members) =
      (some (.ok (decide (∃ code ∈ members, code ∈ codes))), world.cache) := by
    simp only [MemoryCache.perform, CacheTable.live?, hentries, entryOf]
    by_cases hcodes : codes = []
    · simp [hcodes]
    · have hfound : members.any ((∅ : Std.ExtTreeSet String).insertMany codes).contains =
          decide (∃ code ∈ members, code ∈ codes) := by
        rw [Bool.eq_iff_iff, List.any_eq_true, decide_eq_true_eq]
        simp [Std.ExtTreeSet.contains_insertMany_list]
      rw [if_neg hcodes, Option.filter_some, if_pos (by rfl)]
      simp only [hfound]
  rw [h.answer_eq, hperform]
  rfl

/-- **A check is allowed if and only if one of the codes that allow the route is written for
the account.** -/
theorem run_check {world : World} (h : world.Calm) (service : String) {identity : Identity}
    (hadmin : identity.isSuperAdmin = false) (route : Route) {codes : List String}
    (hentry : world.entry (grantsKey identity.account.id) = entryOf codes) :
    (world.run (check service identity route)).1 =
      .finished (if ∃ code ∈ candidates service route, code ∈ codes then .ok ()
        else .error .forbidden) := by
  have hanswer := answer_anyMember_eq h hentry (candidates service route)
  rw [World.run, check, if_neg (by simp [hadmin]), hasAny, Procedure.cache, Dialogue.call_bind,
    Dialogue.run, hanswer]
  by_cases hallowed : ∃ code ∈ candidates service route, code ∈ codes
  · rw [if_pos hallowed, decide_eq_true hallowed]
    rfl
  · rw [if_neg hallowed, decide_eq_false hallowed]
    rfl

/-! ## The last writer decides -/

section Revocation

variable {ι : Type} [DecidableEq ι]

/-- Refreshes and checks that are under way together. -/
def activities (service : String) (account : Account) (activity : ι → Activity) (world : World) :
    Pool ι Ended where
  world := world
  tasks i := (activity i).procedure service account

/-- The pool after an edit of the store. -/
def amend (edit : Edit) (pool : Pool ι Ended) : Pool ι Ended :=
  { pool with world := { pool.world with store := edit.apply pool.world.store } }

/-- **When a revoked code stays revoked.**  In calm surroundings any number of refreshes of
one account, who is no super administrator, and any number of checks are under way.  After
some of their calls the store is edited, so that a code is no longer derivable for the
account, and then they go on, in any order of their calls while time passes.

As soon as one refresh has ended well, some refresh has written last.  A check of a route
for which only this code could be granted is then allowed exactly if the last writer asked
before the edit which codes the resources carry, where a code was taken away, or which
resources there are, where one was disabled.  So it is denied if a refresh that began after
the edit has written last, and allowed if an older one has overtaken it. -/
theorem revoked_allowed_iff {world : World} (hcalm : world.Calm) {account : Account}
    (hadmin : account.isSuperAdmin = false) (edit : Edit) {code : String}
    (hbefore : Derivable world.store account code)
    (hafter : ¬Derivable (edit.apply world.store) account code)
    (service : String) {route : Route} (hcode : code ∈ candidates service route)
    (honly : ∀ other ∈ candidates service route, Derivable world.store account other →
      other = code)
    {identity : Identity} (hidentity : identity.account.id = account.id)
    (hrights : identity.isSuperAdmin = false) (activity : ι → Activity)
    (earlier later : List (Turn ι)) {halted resumed : Pool ι Ended}
    (hhalted : (activities service account activity world).play earlier = halted)
    (hresumed : (amend edit halted).play later = resumed)
    (hended : ∃ i codes, resumed.tasks i = .done (.inl (.ok codes))) :
    ∃ last, lastWriter? resumed.made = some last ∧
      (resumed.world.run (check service identity route)).1 =
        .finished (if hasMade edit.decisive halted.made last then .ok ()
          else .error .forbidden) := by
  have hfollowing : Following world.store (edit.apply world.store) account false halted.made
      resumed := by
    have hstart : Following world.store (edit.apply world.store) account true []
        (activities service account activity world) :=
      Following.start hcalm rfl fun i => (activity i).follows service
    have hplay := hstart.play hadmin earlier
    rw [hhalted] at hplay
    have hamend : amend edit halted =
        { halted with world := { halted.world with store := edit.apply world.store } } := by
      rw [amend, hplay.store]
      rfl
    rw [← hresumed, hamend]
    exact hplay.edited.play hadmin later
  obtain ⟨i, codes, hdone⟩ := hended
  have hwrote : hasMade .cacheWrite resumed.made i = true :=
    (hdone ▸ hfollowing.task i).wrote_of_done hadmin
  obtain ⟨last, hlast⟩ := exists_lastWriter? hwrote
  refine ⟨last, hlast, ?_⟩
  have hwritten := hfollowing.written last hlast
  rw [← hidentity] at hwritten
  rw [run_check hfollowing.calm service hrights route hwritten]
  -- of the codes that allow the route none but this one can be granted
  have hgranted : (∃ other ∈ candidates service route, other ∈ grantsOf
      (storeOf world.store (edit.apply world.store)
        (hasMade .storeResourcesOf (earlyCalls false halted.made resumed.made) last))
      (storeOf world.store (edit.apply world.store)
        (hasMade .storeCodesOf (earlyCalls false halted.made resumed.made) last)) account) ↔
      hasMade edit.decisive halted.made last = true := by
    have hdecisive := edit.mem_grantsOf_iff hadmin hbefore hafter
      (hasMade .storeResourcesOf halted.made last) (hasMade .storeCodesOf halted.made last)
    constructor
    · rintro ⟨other, hmem, hother⟩
      obtain rfl := honly other hmem (edit.derivable_of_mem hadmin hother)
      cases edit with
      | revoke => exact hdecisive.1 hother
      | disable => exact hdecisive.1 hother
    · intro hmade
      refine ⟨code, hcode, hdecisive.2 ?_⟩
      cases edit with
      | revoke => exact hmade
      | disable => exact hmade
  simp only [hgranted]

end Revocation

/-- Surroundings in which the page can be had. -/
def reporting : World where
  wall := ⟨0, 0⟩
  store := .withReports
  snapshots := Snapshots.empty 1 0
  supply _ := Vector.replicate 16 0

/-- Two refreshes of the account are under way, and the first one has asked both its
questions. -/
def halfway : Pool (Fin 2) Ended :=
  (activities "Desk" MemoryStore.alice (fun _ => .refresh) reporting).play [.call 0, .call 0]

/-- The code is taken away, the first refresh goes on and the second one follows it. -/
def inTurn : Pool (Fin 2) Ended :=
  (amend (.revoke 101 "Desk:GET:/reports") halfway).play [.call 0, .call 1, .call 1, .call 1]

/-- The code is taken away, and the second refresh begins and ends before the first one goes
on. -/
def overtaken : Pool (Fin 2) Ended :=
  (amend (.revoke 101 "Desk:GET:/reports") halfway).play [.call 1, .call 1, .call 1, .call 0]

/-- The account with a session. -/
def clerk : Identity :=
  .ofAccount MemoryStore.alice .web "token"

theorem revoked_allowed_iff_inTurn :
    reporting.Calm ∧ Derivable reporting.store MemoryStore.alice "Desk:GET:/reports" ∧
      ¬Derivable (Edit.apply reporting.store (.revoke 101 "Desk:GET:/reports")) MemoryStore.alice
        "Desk:GET:/reports" ∧
      (∀ other ∈ candidates "Desk" ⟨"GET", "/reports"⟩,
        Derivable reporting.store MemoryStore.alice other → other = "Desk:GET:/reports") ∧
      inTurn.tasks 1 = .done (.inl (.ok [])) ∧ lastWriter? inTurn.made = some 1 ∧
      (inTurn.world.run (check "Desk" clerk ⟨"GET", "/reports"⟩)).1 =
        .finished (.error .forbidden) := by
  have hcalm : reporting.Calm := ⟨rfl, rfl⟩
  have hderived : derivedCodes reporting.store MemoryStore.alice = ["Desk:GET:/reports"] := by
    decide +kernel
  have hbefore : Derivable reporting.store MemoryStore.alice "Desk:GET:/reports" := by
    rw [← mem_derivedCodes_iff, hderived]
    exact List.mem_cons_self
  have hafter : ¬Derivable (Edit.apply reporting.store (.revoke 101 "Desk:GET:/reports"))
      MemoryStore.alice "Desk:GET:/reports" := by
    rw [← mem_derivedCodes_iff]
    decide +kernel
  have honly : ∀ other ∈ candidates "Desk" ⟨"GET", "/reports"⟩,
      Derivable reporting.store MemoryStore.alice other → other = "Desk:GET:/reports" := by
    intro other _ hother
    rw [← mem_derivedCodes_iff, hderived] at hother
    exact List.mem_singleton.1 hother
  have hended : inTurn.tasks 1 = .done (.inl (.ok [])) :=
    Dialogue.result?_eq_some_iff.1 (by decide +kernel)
  obtain ⟨last, hlast, hcheck⟩ := revoked_allowed_iff hcalm rfl (.revoke 101 "Desk:GET:/reports")
    hbefore hafter "Desk" (by decide) honly (rfl : clerk.account.id = _) rfl (fun _ => .refresh)
    _ _ rfl (rfl : _ = inTurn) ⟨1, [], hended⟩
  have hone : lastWriter? inTurn.made = some 1 := by decide +kernel
  obtain rfl : last = 1 := Option.some.inj (hlast.symm.trans hone)
  rw [if_neg (by decide +kernel)] at hcheck
  exact ⟨hcalm, hbefore, hafter, honly, hended, hone, hcheck⟩

/-- **An older refresh can bring a revoked code back.**  The second refresh asks its first
question after the edit and ends well without the code; then the first one writes what it
had derived before, and the check is allowed. -/
theorem revoked_allowed_overtaken :
    ¬Derivable overtaken.world.store MemoryStore.alice "Desk:GET:/reports" ∧
      overtaken.tasks 1 = .done (.inl (.ok [])) ∧
      hasMade .storeResourcesOf halfway.made 1 = false ∧
      (overtaken.world.run (check "Desk" clerk ⟨"GET", "/reports"⟩)).1 = .finished (.ok ()) := by
  refine ⟨?_, Dialogue.result?_eq_some_iff.1 (by decide +kernel), by decide +kernel,
    by decide +kernel⟩
  rw [← mem_derivedCodes_iff]
  decide +kernel

end Grant
end AccountAccess
