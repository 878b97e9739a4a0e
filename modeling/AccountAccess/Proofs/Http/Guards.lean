import AccountAccess.Http.Endpoint
import AccountAccess.Proofs.Grant.Refresh
import AccountAccess.Proofs.Partner.Admission
import AccountAccess.Proofs.Session.Verdict

/-!
# Who passes a guard

A guard asks who is calling and whether the caller may, and does nothing else.  Each of its
questions is answered, if only with a failure, so that it comes to a result in any
surroundings, and leaves cache and store as they are.

`Guard.Passes` says whom a guard lets pass, in terms of what is found at that moment: the
identity of the request, its rights, and the codes that are written for its account.  It does not
say whom a guard refuses; that a refusal is deserved is another matter, and in an outage it need
not be.

## Main results

* `run_check_cases`, `run_partner_cases`: the two questions that a guard asks beside that for an
  identity, in any surroundings.
* `Asks`: a question that comes to a result and changes neither cache nor store.
* `Guard.asks_caller`: every guard is such a question, and whom it lets pass has been found out.
-/

namespace AccountAccess

namespace Grant

/-! ## Questions -/

/-- **A check in any surroundings.**  It lets pass a super administrator, and an identity for
which one of the codes that allow the route is written, if the cache says so. -/
theorem run_check_cases (world : World) (service : String) (identity : Identity)
    (route : Route) :
    ∃ result after, world.run (check service identity route) = (.finished result, after) ∧
      World.Spares world after ∧
      (result = .ok () ↔ identity.isSuperAdmin = true ∨
        world.answersCache .cacheAnyMember = true ∧ ∃ code ∈ candidates service route,
          code ∈ world.cache.membersAt world.clock (grantsKey identity.account.id)) := by
  unfold check
  by_cases hadmin : identity.isSuperAdmin = true
  · rw [if_pos hadmin]
    exact ⟨.ok (), world, rfl, .refl world, iff_of_true rfl (Or.inl hadmin)⟩
  · rw [if_neg hadmin]
    obtain ⟨found, hperform, hfound⟩ := world.cache.perform_anyMember world.clock
      (grantsKey identity.account.id) (candidates service route)
    obtain ⟨answer, faults, -, hrun, hanswered⟩ := World.run_cache_of_perform hperform
    rw [hasAny, World.run_bind hrun]
    rcases hanswered with ⟨hanswers, rfl⟩ | ⟨hanswers, e, rfl⟩
    · replace hanswers : world.answersCache .cacheAnyMember = true := hanswers
      cases found with
      | true =>
        exact ⟨.ok (), _, rfl, ⟨rfl, rfl, rfl⟩,
          iff_of_true rfl (Or.inr ⟨hanswers, hfound.1 rfl⟩)⟩
      | false =>
        refine ⟨.error .forbidden, _, rfl, ⟨rfl, rfl, rfl⟩, iff_of_false (by simp) ?_⟩
        rintro (h | ⟨-, h⟩)
        · exact hadmin h
        · exact absurd (hfound.2 h) (by simp)
    · replace hanswers : world.answersCache .cacheAnyMember = false := hanswers
      refine ⟨.error .forbidden, _, rfl, ⟨rfl, rfl, rfl⟩, iff_of_false (by simp) ?_⟩
      rintro (h | ⟨h, -⟩)
      · exact hadmin h
      · rw [hanswers] at h
        exact absurd h (by simp)

end Grant

namespace Partner

theorem run_partner_cases (world : World) (primitives : Primitives) (service : String)
    (window : Int64) (headers : Http.Headers) (route : Route) :
    ∃ result after, world.run (partner primitives service window headers route) =
      (.finished result, after) ∧ World.Spares world after := by
  have hnow : world.run Procedure.now = (.finished world.wall, world) := rfl
  rw [partner, World.run_bind hnow]
  obtain ⟨ruling, after, hrun, hspares, -⟩ :=
    run_partnerAt primitives service window headers route (Int64.ofInt world.wall.seconds) world
  exact ⟨ruling, after, hrun, hspares⟩

end Partner

namespace Http

/-! ## Guards -/

/-- A request is given an identity. -/
def Identified (world : World) (headers : Headers) (identity : Identity) : Prop :=
  (world.run (Session.identify headers)).1 = .finished (.ok identity)

/-- **What a guard has found out** about a caller that it lets pass. -/
inductive Guard.Passes (service : Service) (headers : Headers) (route : Route) (world : World) :
    Guard → Caller → Prop where
  | anyone : Passes service headers route world .anyone .anyone
  | session {identity : Identity} (hidentity : Identified world headers identity) :
      Passes service headers route world .session (.account identity)
  | granted {identity : Identity} (hidentity : Identified world headers identity)
      (hgranted : identity.isSuperAdmin = true ∨
        ∃ code ∈ Grant.candidates service.settings.serviceCode route,
          code ∈ world.cache.membersAt world.clock (Grant.grantsKey identity.account.id)) :
      Passes service headers route world .granted (.account identity)
  | staff {identity : Identity} (hidentity : Identified world headers identity)
      (hstaff : identity.isStaff = true) :
      Passes service headers route world .staff (.account identity)
  | superAdmin {identity : Identity} (hidentity : Identified world headers identity)
      (hadmin : identity.isSuperAdmin = true) :
      Passes service headers route world .superAdmin (.account identity)
  | partner {name : String}
      (hpartner : (world.run (Partner.partner service.primitives service.settings.serviceCode
        service.settings.partnerWindow headers route)).1 = .finished (.ok name)) :
      Passes service headers route world .partner (.partner name)

/-- A question that comes to a result and changes neither cache nor store; of the callers that it
lets pass something is known. -/
def Asks (world : World) (question : Procedure (Except Refusal Caller)) (Known : Caller → Prop) :
    Prop :=
  ∃ result after, world.run question = (.finished result, after) ∧ World.Spares world after ∧
    ∀ caller, result = .ok caller → Known caller

/-- A question that is about the identity of a request. -/
theorem asks_of_identity {world : World} {headers : Headers} {Known : Caller → Prop}
    {next : Identity → Procedure (Except Refusal Caller)}
    (hnext : ∀ identity known, Identified world headers identity → World.Spares world known →
      Asks known (next identity) Known) :
    Asks world (do
      match ← Session.identify headers with
      | .error refusal => return .error refusal
      | .ok identity => next identity) Known := by
  obtain ⟨verdict, known, hidentify, -, hlooks, -⟩ := Session.run_identify world headers
  rw [Asks, World.run_bind hidentify]
  cases verdict with
  | error refusal => exact ⟨_, known, rfl, hlooks.toSpares, fun _ h => absurd h (by simp)⟩
  | ok identity =>
    have hidentified : Identified world headers identity := by rw [Identified, hidentify]
    obtain ⟨result, after, hrun, hspares, hknown⟩ :=
      hnext identity known hidentified hlooks.toSpares
    exact ⟨result, after, hrun, hlooks.toSpares.trans hspares, hknown⟩

/-- **A guard in any surroundings** comes to a result and changes neither cache nor store; whom
it lets pass has been found out. -/
theorem Guard.asks_caller (guard : Guard) (service : Service) (headers : Headers) (route : Route)
    (world : World) :
    Asks world (guard.caller service headers route)
      (guard.Passes service headers route world) := by
  cases guard with
  | anyone =>
    refine ⟨.ok .anyone, world, rfl, .refl world, ?_⟩
    rintro caller ⟨⟩
    exact .anyone
  | session =>
    refine asks_of_identity fun identity known hidentity _ => ?_
    refine ⟨_, known, rfl, .refl known, ?_⟩
    rintro caller ⟨⟩
    exact .session hidentity
  | granted =>
    refine asks_of_identity fun identity known hidentity hspares => ?_
    obtain ⟨checked, after, hcheck, hspared, hiff⟩ :=
      Grant.run_check_cases known service.settings.serviceCode identity route
    rw [Asks, World.run_bind hcheck]
    cases checked with
    | error refusal => exact ⟨_, after, rfl, hspared, fun _ h => absurd h (by simp)⟩
    | ok checked =>
      refine ⟨_, after, rfl, hspared, ?_⟩
      rintro caller ⟨⟩
      refine .granted hidentity ((hiff.1 rfl).imp_right ?_)
      rintro ⟨-, hcodes⟩
      rwa [hspares.cache, hspares.clock] at hcodes
  | staff =>
    refine asks_of_identity fun identity known hidentity _ => ?_
    refine ⟨_, known, rfl, .refl known, fun caller hcaller => ?_⟩
    by_cases hstaff : identity.isStaff = true
    · rw [Grant.requireStaff, if_pos hstaff] at hcaller
      cases hcaller
      exact .staff hidentity hstaff
    · rw [Grant.requireStaff, if_neg hstaff] at hcaller
      exact absurd hcaller (by simp [Except.map])
  | superAdmin =>
    refine asks_of_identity fun identity known hidentity _ => ?_
    refine ⟨_, known, rfl, .refl known, fun caller hcaller => ?_⟩
    by_cases hadmin : identity.isSuperAdmin = true
    · rw [Grant.requireSuperAdmin, if_pos hadmin] at hcaller
      cases hcaller
      exact .superAdmin hidentity hadmin
    · rw [Grant.requireSuperAdmin, if_neg hadmin] at hcaller
      exact absurd hcaller (by simp [Except.map])
  | partner =>
    obtain ⟨admitted, after, hpartner, hspares⟩ := Partner.run_partner_cases world
      service.primitives service.settings.serviceCode service.settings.partnerWindow headers route
    rw [Guard.caller, Asks, World.run_bind hpartner]
    cases admitted with
    | error refusal => exact ⟨_, after, rfl, hspares, fun _ h => absurd h (by simp)⟩
    | ok name =>
      refine ⟨_, after, rfl, hspares, ?_⟩
      rintro caller ⟨⟩
      exact .partner (by rw [hpartner])

end Http
end AccountAccess
