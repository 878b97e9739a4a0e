import AccountAccess.Http.Site
import AccountAccess.Proofs.Grant.Rebuild

/-!
# Which entries a request can come near

A request is counted first.  What comes after that, from the search for an interface to the end of
the call, names keys of every family but the counters: so the counters of clients are moved by
counting and by nothing else that a service does.

Which keys a procedure names is seen in its tree of calls, whatever is answered.  The procedures are
gone through from the inside out, each by the lemmas of those that it is made of, and no
surroundings are mentioned.

## Main results

* `CacheKey.CountsNothing`: the keys of all families but the counters of requests.
* `Guard.names_caller`, `Endpoint.names_handle`: no guard and no interface names a counter.
* `Service.names_dispatch`: what comes after counting names no counter.
-/

namespace AccountAccess

/-! ## Keys that are no counters -/

/-- The keys of all families but the counters of requests. -/
def CacheKey.CountsNothing : CacheKey → Prop
  | requests _ => False
  | _ => True

theorem CacheKey.countsNothing_of_session {key : CacheKey} (h : key.IsOfSession) :
    key.CountsNothing := by
  cases key with
  | requests client => exact h
  | _ => trivial

theorem CacheKey.not_countsNothing (client : String) : ¬(requests client).CountsNothing :=
  not_false

open CacheKey (CountsNothing countsNothing_of_session)
open Procedure (Names names_store names_now names_random)

/-! ## Sessions and passwords -/

namespace Session

theorem Attempt.names_procedure (primitives : Primitives) (ttl : UInt64) (scene : Scene)
    (attempt : Attempt) : (attempt.procedure primitives ttl scene).Names CountsNothing := by
  rw [attempt.procedure_eq]
  refine (attempt.names_authenticate (fun _ _ => trivial) primitives).bind fun found => ?_
  cases found with
  | error failure => exact .done _
  | ok account =>
    exact (Grant.names_refresh (by trivial)).bind
      (names_openRefreshed (fun _ => countsNothing_of_session) ttl account scene)

theorem names_logout (identity : Identity) : (logout identity).Names CountsNothing := by
  refine (names_revoke (fun _ => countsNothing_of_session) _ _).bind fun revoked => ?_
  cases revoked with
  | _ => exact .done _

section Passwords

variable {kind : CacheKey → Prop} (primitives : Primitives)

theorem names_savePassword (account : Int64) (password : String) :
    (savePassword primitives account password).Names kind := by
  refine names_random.bind fun salt => (names_store _).bind fun written => ?_
  cases written with
  | _ => exact .done _

theorem names_changePassword (identity : Identity) (old new : String) :
    (changePassword primitives identity old new).Names kind := by
  refine .ite (.done _) ((names_store _).bind fun found => ?_)
  rcases found with e | _ | account
  · exact .done _
  · exact .done _
  · dsimp only
    rcases primitives.checkPassword old account.passwordHash with fault | _ | _
    · exact .done _
    · exact .done _
    · exact names_savePassword primitives account.id new

theorem names_resetPassword (hcode : ∀ recipient, kind (.code .resetPassword recipient))
    (identifier code password : String) :
    (resetPassword primitives identifier code password).Names kind := by
  refine .ite (.done _) ?_
  exact OneTimeCode.names_presenting hcode identifier code fun account =>
    names_savePassword primitives account.id password

end Passwords
end Session

/-! ## Requests -/

namespace Http

theorem Guard.names_caller (guard : Guard) (service : Service) (headers : Headers)
    (route : Route) : (guard.caller service headers route).Names CountsNothing := by
  have hidentify : (Session.identify headers).Names CountsNothing :=
    Session.names_identify (fun _ => countsNothing_of_session) headers
  cases guard with
  | anyone => exact .done _
  | session | staff | superAdmin =>
    refine hidentify.bind fun found => ?_
    cases found with
    | _ => exact .done _
  | granted =>
    refine hidentify.bind fun found => ?_
    cases found with
    | error refusal => exact .done _
    | ok identity =>
      refine (Grant.names_check (by trivial) _ route).bind fun allowed => ?_
      cases allowed with
      | _ => exact .done _
  | partner =>
    refine (Partner.names_partner (fun _ => trivial) (fun _ => trivial) _ _ _ _ _).bind
      fun admitted => ?_
    cases admitted with
    | _ => exact .done _

section Parts

variable {kind : CacheKey → Prop}

theorem names_withBody {α : Type} (request : Request) (read : Json.Reader α)
    {next : α → Procedure Response} (h : ∀ value, (next value).Names kind) :
    (withBody request read next).Names kind := by
  unfold withBody
  cases request.readBody read with
  | error status => exact .done _
  | ok value => exact h value

theorem names_withPathId (pieces : List String) {next : Int64 → Procedure Response}
    (h : ∀ id, (next id).Names kind) : (withPathId pieces next).Names kind := by
  unfold withPathId
  cases pathId pieces with
  | error status => exact .done _
  | ok id => exact h id

theorem names_withAccount (id : Int64) {next : Account → Procedure Response}
    (h : ∀ account, (next account).Names kind) : (withAccount id next).Names kind := by
  refine (names_store _).bind fun found => ?_
  rcases found with e | _ | account
  · exact .done _
  · exact .done _
  · exact h account

end Parts

/-- **No interface names a counter**, whoever is calling. -/
theorem Endpoint.names_handle (endpoint : Endpoint) (service : Service) (request : Request)
    (pieces : List String) (caller : Caller) :
    (endpoint.handle service request pieces caller).Names CountsNothing := by
  cases endpoint with
  | loginWithPassword =>
    exact names_withBody request _ fun login => (Session.Attempt.names_procedure _ _ login.scene
      (.withPassword login.identifier login.secret)).bind fun opened => .done _
  | loginWithCode =>
    exact names_withBody request _ fun login => (Session.Attempt.names_procedure
      service.primitives _ login.scene (.withCode login.identifier login.secret)).bind
        fun opened => .done _
  | resetPassword =>
    exact names_withBody request _ fun reset => (Session.names_resetPassword _ (fun _ => trivial)
      reset.identifier reset.code reset.password).bind fun done => .done _
  | logout =>
    cases caller with
    | account identity => exact (Session.names_logout identity).bind fun done => .done _
    | _ => exact .done _
  | myself =>
    cases caller with
    | account identity => exact names_now.bind fun now => .done _
    | _ => exact .done _
  | changePassword =>
    cases caller with
    | account identity =>
      exact names_withBody request _ fun change => (Session.names_changePassword _ identity
        change.old change.new).bind fun done => .done _
    | _ => exact .done _
  | account =>
    cases caller with
    | account identity =>
      exact names_withPathId pieces fun id => names_withAccount id fun account =>
        names_now.bind fun now => .done _
    | _ => exact .done _
  | accountCodes =>
    cases caller with
    | account identity =>
      exact names_withPathId pieces fun id => names_withAccount id fun account =>
        (Grant.names_derive account).bind fun codes => .done _
    | _ => exact .done _
  | refreshCodes =>
    cases caller with
    | account identity =>
      exact names_withPathId pieces fun id => names_withAccount id fun account =>
        (Grant.names_refresh (by trivial)).bind fun codes => .done _
    | _ => exact .done _
  | ping =>
    cases caller with
    | _ => exact .done _

/-- **What comes after counting names no counter.** -/
theorem Service.names_dispatch (service : Service) (request : Request) :
    (service.dispatch request).Names CountsNothing := by
  unfold Service.dispatch
  cases service.find? request.path with
  | none => exact .done _
  | some found =>
    obtain ⟨endpoint, pieces⟩ := found
    refine (endpoint.guard.names_caller service _ _).bind fun admitted => ?_
    cases admitted with
    | error refusal => exact .done _
    | ok caller => exact .ite (endpoint.names_handle service request pieces caller) (.done _)

end Http
end AccountAccess
