import AccountAccess.Proofs.Http.Outage
import AccountAccess.Proofs.Service.Causes

/-!
# Callers never see why something failed

An error of cache or store is carried through the service as it came, inside the error of a
refresh and the failure of a login.  It is lost where the answer is made: an internal failure has
one constant answer, a refusal says only which question was not settled, and where a failure is
passed over nothing is kept of it.

For each procedure it is said here what its results show of the causes: cache and store calls
and refreshes end with an error in the same cases, signing in ends with the same failure or with
internal failures, and what a guard finds out and what is answered do not differ at all.

## The relation

Two runs are compared in surroundings in which the same calls fail, for whatever reasons.  A
procedure *blurs* the causes up to a relation of results if such runs make the same calls and end
with related results.  The relation grows coarser on the way up: equal but for the error
(`SameUpTo`) for single calls, equal or both internal (`ReadAlike`) for the calls of sessions, and
equality from the answers on.

## Main results

* `blurs_openFor`, `blurs_loginWithPassword`, `blurs_loginWithCode`, `blurs_changePassword`,
  `blurs_resetPassword`: the calls of sessions, which all answer up to `ReadAlike`.
* `response_ofLogin`: failures that read alike have the same answer.
* `Guard.blurs_caller`, `Endpoint.blurs_handle`: what a guard finds out, and what is answered.
* `Service.blurs_serve`: a request makes the same calls and has the same answer.
* `Service.serve_eq_of_samePlaces`: the same of two runs whose causes differ.
-/

namespace AccountAccess

open Procedure (Alike blurs_cache blurs_store blurs_retrieve blurs_remember blurs_now
  blurs_random)

/-! ## Results that read alike -/

/-- Two failures that read alike for the sender: they are equal, or both internal. -/
def LoginFailure.ReadsAs (failure other : LoginFailure) : Prop :=
  failure = other ∨ failure.isInternal = true ∧ other.isInternal = true

theorem LoginFailure.ReadsAs.refl (failure : LoginFailure) : failure.ReadsAs failure :=
  Or.inl rfl

/-- Two results of signing in, signing out or changing a password that read alike. -/
abbrev ReadAlike {α : Type} : Except LoginFailure α → Except LoginFailure α → Prop :=
  SameUpTo LoginFailure.ReadsAs

/-! ## Sessions, codes, rights -/

namespace Session

theorem blurs_issue (owner : SessionOwner) (token : String) (ttl : UInt64) :
    (issue owner token ttl).Blurs SameUpToCause := by
  refine (blurs_cache _).andThen (fun _ _ h => .done (.error h)) fun _ => ?_
  refine (blurs_cache _).andThen (fun _ _ h => .done (.error h)) fun previous => ?_
  cases previous with
  | none => exact .done (.ok ())
  | some previous => exact .ite (.done (.ok ())) (blurs_cache (.remove _))

theorem blurs_resolve (token : String) : (resolve token).Blurs SameUpToCause :=
  (blurs_cache _).andThen (fun _ _ h => .done (.error h)) fun _ => .done (.ok _)

theorem blurs_revoke (owner : SessionOwner) (token : String) :
    (revoke owner token).Blurs SameUpToCause :=
  (blurs_cache _).andThen (fun _ _ h => .done (.error h)) fun _ => blurs_cache (.remove _)

theorem blurs_accountOf (identifier : String) : (accountOf identifier).Blurs SameUpToCause := by
  unfold accountOf
  cases Identifier.read? identifier with
  | none => exact .done (.ok none)
  | some identifier => exact blurs_store (.accountOf identifier)

theorem blurs_findAccount (id : Int64) {fetch : Procedure (Except StoreError (Option Account))}
    (hfetch : fetch.Blurs SameUpToCause) :
    (findAccount id fetch).Blurs SameUpToCause := by
  refine (blurs_retrieve id).andThenSame fun young => ?_
  cases young with
  | some account => exact .done (.ok _)
  | none =>
    refine hfetch.andThen (fun _ _ h => .done (.error h)) fun found => ?_
    cases found with
    | none => exact .done (.ok _)
    | some account => exact (blurs_remember id account).andThenSame fun _ => .done (.ok _)

/-- A session that cannot be read is no session, and an account that cannot be looked up is no
account. -/
theorem blurs_identify (headers : Http.Headers) : (identify headers).Blurs Eq := by
  unfold identify
  cases bearerToken headers with
  | error refusal => exact .done rfl
  | ok token =>
    refine (blurs_resolve token).andThen (fun _ _ _ => .done rfl) fun found => ?_
    cases found with
    | none => exact .done rfl
    | some owner =>
      refine .ite (.done rfl) ?_
      refine (blurs_findAccount _ (blurs_store (.account _))).andThen (fun _ _ _ => .done rfl)
        fun found => ?_
      cases found with
      | none => exact .done rfl
      | some account => exact .ite (.done rfl) (.done rfl)

end Session

theorem OneTimeCode.blurs_spend (purpose : CodePurpose) (recipient code : String) :
    (spend purpose recipient code).Blurs SameUpToCause := by
  refine (blurs_cache _).andThen (fun _ _ h => .done (.error h)) fun expected => ?_
  refine .ite ?_ (.done (.ok _))
  exact (blurs_cache _).andThen (fun _ _ h => .done (.error h)) fun _ => .done (.ok _)

namespace Grant

theorem blurs_check (service : String) (identity : Identity) (route : Route) :
    (check service identity route).Blurs Eq := by
  refine .ite (.done rfl) ((blurs_cache _).andThen (fun _ _ _ => .done rfl) fun found => ?_)
  cases found with
  | true => exact .done rfl
  | false => exact .done rfl

theorem blurs_derive (account : Account) : (derive account).Blurs SameUpToCause := by
  refine .ite (.done (.ok _)) ?_
  refine (blurs_store _).andThen (fun _ _ _ => .done (.error trivial)) fun resources => ?_
  cases resources with
  | nil => exact .done (.ok _)
  | cons resource rest =>
    exact (blurs_store _).andThen (fun _ _ _ => .done (.error trivial)) fun _ => .done (.ok _)

theorem blurs_refresh (account : Account) : (refresh account).Blurs SameUpToCause := by
  refine (blurs_derive account).andThen (fun _ _ _ => .done (.error trivial)) fun codes => ?_
  exact (blurs_cache _).andThen (fun _ _ _ => .done (.error trivial)) fun _ => .done (.ok _)

end Grant

/-- A secret that cannot be read is none, and codes that cannot be read grant nothing. -/
theorem Partner.blurs_partner (primitives : Primitives) (service : String) (window : Int64)
    (headers : Http.Headers) (route : Route) :
    (partner primitives service window headers route).Blurs Eq := by
  refine blurs_now.andThenSame fun now => ?_
  unfold partnerAt
  cases Credentials.ofHeaders? headers with
  | none => exact .done rfl
  | some credentials =>
    refine .ite (.done rfl) ((blurs_cache _).andThen (fun _ _ _ => .done rfl) fun secret => ?_)
    cases secret with
    | none => exact .done rfl
    | some secret =>
      refine .ite (.done rfl) ((blurs_cache _).andThen (fun _ _ _ => .done rfl) fun found => ?_)
      cases found with
      | true => exact .done rfl
      | false => exact .done rfl

/-! ## Signing in, signing out, passwords -/

namespace Session

theorem alike_internal {α : Type} {failure other : LoginFailure}
    (hfailure : failure.isInternal = true) (hother : other.isInternal = true) :
    Alike ReadAlike (.done (.error failure) : Procedure (Except LoginFailure α))
      (.done (.error other)) :=
  .done (.error (Or.inr ⟨hfailure, hother⟩))

/-- **Opening a session** fails internally in the same cases.  That the time could not be noted
shows in the account, but not why. -/
theorem blurs_openFor (ttl : UInt64) (account : Account) (scene : Scene) :
    (openFor ttl account scene).Blurs ReadAlike := by
  refine (Grant.blurs_refresh account).andThen (fun _ _ _ => alike_internal rfl rfl) fun _ => ?_
  refine blurs_random.andThenSame fun random => ?_
  refine (blurs_issue _ _ _).andThen (fun _ _ _ => alike_internal rfl rfl) fun _ => ?_
  refine blurs_now.andThenSame fun now => ?_
  refine (blurs_store _).andThen (fun _ _ _ => ?_) fun _ => ?_
  all_goals
    cases expiryOf now ttl with
    | none => exact .abort
    | some expiresAt => exact .done (.ok _)

theorem blurs_openIfActive (ttl : UInt64) (account : Account) (scene : Scene) :
    Procedure.Blurs ReadAlike
      (if account.isActive then openFor ttl account scene else return .error .disabled) :=
  .ite (blurs_openFor ttl account scene) (.done (.error (.refl _)))

theorem blurs_loginWithPassword (primitives : Primitives) (ttl : UInt64)
    (identifier password : String) (scene : Scene) :
    (loginWithPassword primitives ttl identifier password scene).Blurs ReadAlike := by
  refine (blurs_accountOf identifier).andThen (fun _ _ _ => alike_internal rfl rfl)
    fun found => ?_
  cases found with
  | none => exact .done (.error (.refl _))
  | some account =>
    dsimp only
    rcases primitives.checkPassword password account.passwordHash with fault | _ | _
    · exact .done (.error (.refl _))
    · exact .done (.error (.refl _))
    · exact blurs_openIfActive ttl account scene

theorem blurs_loginWithCode (ttl : UInt64) (identifier code : String) (scene : Scene) :
    (loginWithCode ttl identifier code scene).Blurs ReadAlike := by
  refine (blurs_accountOf identifier).andThen (fun _ _ _ => alike_internal rfl rfl)
    fun found => ?_
  cases found with
  | none => exact .done (.error (.refl _))
  | some account =>
    refine (OneTimeCode.blurs_spend _ _ _).andThen (fun _ _ _ => alike_internal rfl rfl)
      fun spent => ?_
    cases spent with
    | false => exact .done (.error (.refl _))
    | true => exact blurs_openIfActive ttl account scene

theorem blurs_logout (identity : Identity) : (logout identity).Blurs ReadAlike :=
  (blurs_revoke _ _).andThen (fun _ _ _ => alike_internal rfl rfl) fun _ => .done (.ok _)

theorem blurs_savePassword (primitives : Primitives) (account : Int64) (password : String) :
    (savePassword primitives account password).Blurs ReadAlike := by
  refine blurs_random.andThenSame fun salt => ?_
  exact (blurs_store _).andThen (fun _ _ _ => alike_internal rfl rfl) fun _ => .done (.ok _)

theorem blurs_changePassword (primitives : Primitives) (identity : Identity)
    (old new : String) :
    (changePassword primitives identity old new).Blurs ReadAlike := by
  refine .ite (.done (.error (.refl _))) ?_
  refine (blurs_store _).andThen (fun _ _ _ => alike_internal rfl rfl) fun found => ?_
  cases found with
  | none => exact .done (.error (.refl _))
  | some account =>
    dsimp only
    rcases primitives.checkPassword old account.passwordHash with fault | _ | _
    · exact .done (.error (.refl _))
    · exact .done (.error (.refl _))
    · exact blurs_savePassword primitives account.id new

theorem blurs_resetPassword (primitives : Primitives) (identifier code password : String) :
    (resetPassword primitives identifier code password).Blurs ReadAlike := by
  refine .ite (.done (.error (.refl _))) ?_
  refine (blurs_accountOf identifier).andThen (fun _ _ _ => alike_internal rfl rfl)
    fun found => ?_
  cases found with
  | none => exact .done (.error (.refl _))
  | some account =>
    refine (OneTimeCode.blurs_spend _ _ _).andThen (fun _ _ _ => alike_internal rfl rfl)
      fun spent => ?_
    cases spent with
    | false => exact .done (.error (.refl _))
    | true => exact blurs_savePassword primitives account.id password

end Session

namespace Http

/-! ## Answers -/

/-- **Failures that read alike have the same answer.** -/
theorem response_ofLogin {failure other : LoginFailure} (h : failure.ReadsAs other) :
    (Problem.ofLogin failure).response = (Problem.ofLogin other).response := by
  rcases h with rfl | ⟨hfailure, hother⟩
  · rfl
  · rw [Problem.ofLogin, Problem.ofLogin, if_pos hfailure, if_pos hother]
    rfl

theorem openedResponse_congr {result other : Except LoginFailure Session.Opened}
    (h : ReadAlike result other) :
    openedResponse result = openedResponse other := by
  cases h with
  | ok opened => rfl
  | error hfailures => exact response_ofLogin hfailures

theorem unitResponse_congr {result other : Except LoginFailure Unit}
    (h : ReadAlike result other) :
    unitResponse result = unitResponse other := by
  cases h with
  | ok => rfl
  | error hfailures => exact response_ofLogin hfailures

theorem codesResponse_congr (account : Int64) {result other : Except RefreshError (List String)}
    (h : SameUpToCause result other) :
    codesResponse account result = codesResponse account other := by
  cases h with
  | ok codes => rfl
  | error => rfl

/-! ## Requests -/

/-- The questions of a guard that begin with the identity of a request. -/
theorem blurs_of_identity {headers : Headers}
    {next : Identity → Procedure (Except Refusal Caller)}
    (hnext : ∀ identity, (next identity).Blurs Eq) :
    Procedure.Blurs Eq (do
      match ← Session.identify headers with
      | .error refusal => return .error refusal
      | .ok identity => next identity) := by
  refine (Session.blurs_identify headers).andThenSame fun found => ?_
  cases found with
  | error refusal => exact .done rfl
  | ok identity => exact hnext identity

/-- **What a guard finds out does not depend on causes.** -/
theorem Guard.blurs_caller (guard : Guard) (service : Service) (headers : Headers)
    (route : Route) :
    (guard.caller service headers route).Blurs Eq := by
  cases guard with
  | anyone => exact .done rfl
  | session => exact blurs_of_identity fun identity => .done rfl
  | granted =>
    refine blurs_of_identity fun identity => ?_
    refine (Grant.blurs_check _ identity route).andThenSame fun checked => ?_
    cases checked with
    | error refusal => exact .done rfl
    | ok checked => exact .done rfl
  | staff => exact blurs_of_identity fun identity => .done rfl
  | superAdmin => exact blurs_of_identity fun identity => .done rfl
  | partner =>
    refine (Partner.blurs_partner _ _ _ headers route).andThenSame fun admitted => ?_
    cases admitted with
    | error refusal => exact .done rfl
    | ok name => exact .done rfl

theorem blurs_withBody {α : Type} (request : Request) (read : Json.Reader α)
    {next : α → Procedure Response} (hnext : ∀ value, (next value).Blurs Eq) :
    (withBody request read next).Blurs Eq := by
  unfold withBody
  cases request.readBody read with
  | error status => exact .done rfl
  | ok value => exact hnext value

theorem blurs_withAccount (id : Int64) {next : Account → Procedure Response}
    (hnext : ∀ account, (next account).Blurs Eq) :
    (withAccount id next).Blurs Eq := by
  refine (blurs_store _).andThen (fun _ _ _ => .done rfl) fun found => ?_
  cases found with
  | none => exact .done rfl
  | some account => exact hnext account

theorem blurs_withPathId (pieces : List String) {next : Int64 → Procedure Response}
    (hnext : ∀ id, (next id).Blurs Eq) :
    (withPathId pieces next).Blurs Eq := by
  unfold withPathId
  cases pathId pieces with
  | error status => exact .done rfl
  | ok id => exact hnext id

theorem blurs_answer {α : Type} {Related : α → α → Prop} {procedure : Procedure α}
    {answer : α → Response} (h : procedure.Blurs Related)
    (hanswer : ∀ {a b}, Related a b → answer a = answer b) :
    (do return answer (← procedure)).Blurs Eq :=
  h.bind fun _ _ hresults => .done (hanswer hresults)

/-- **What an interface answers does not depend on causes.** -/
theorem Endpoint.blurs_handle (endpoint : Endpoint) (service : Service) (request : Request)
    (pieces : List String) (caller : Caller) :
    (endpoint.handle service request pieces caller).Blurs Eq := by
  cases endpoint with
  | loginWithPassword =>
    exact blurs_withBody request _ fun login =>
      blurs_answer (Session.blurs_loginWithPassword _ _ _ _ _) openedResponse_congr
  | loginWithCode =>
    exact blurs_withBody request _ fun login =>
      blurs_answer (Session.blurs_loginWithCode _ _ _ _) openedResponse_congr
  | resetPassword =>
    exact blurs_withBody request _ fun reset =>
      blurs_answer (Session.blurs_resetPassword _ _ _ _) unitResponse_congr
  | logout =>
    cases caller with
    | account identity => exact blurs_answer (Session.blurs_logout identity) unitResponse_congr
    | _ => exact .done rfl
  | myself =>
    cases caller with
    | account identity => exact blurs_now.andThenSame fun now => .done rfl
    | _ => exact .done rfl
  | changePassword =>
    cases caller with
    | account identity =>
      exact blurs_withBody request _ fun change =>
        blurs_answer (Session.blurs_changePassword _ identity _ _) unitResponse_congr
    | _ => exact .done rfl
  | account =>
    cases caller with
    | account identity =>
      exact blurs_withPathId pieces fun id => blurs_withAccount id fun account =>
        blurs_now.andThenSame fun now => .done rfl
    | _ => exact .done rfl
  | accountCodes =>
    cases caller with
    | account identity =>
      exact blurs_withPathId pieces fun id => blurs_withAccount id fun account =>
        blurs_answer (Grant.blurs_derive account) (codesResponse_congr id)
    | _ => exact .done rfl
  | refreshCodes =>
    cases caller with
    | account identity =>
      exact blurs_withPathId pieces fun id => blurs_withAccount id fun account =>
        blurs_answer (Grant.blurs_refresh account) (codesResponse_congr id)
    | _ => exact .done rfl
  | ping =>
    cases caller with
    | _ => exact .done rfl

theorem blurs_limitRequests (window : UInt64) (limit : UInt32) (client : String) :
    (limitRequests window limit client).Blurs Eq :=
  (blurs_cache _).andThen (fun _ _ _ => .done rfl) fun _ => .ite (.done rfl) (.done rfl)

theorem Service.blurs_dispatch (service : Service) (request : Request) :
    (service.dispatch request).Blurs Eq := by
  unfold dispatch
  rcases service.find? request.path with _ | ⟨endpoint, pieces⟩
  · exact .done rfl
  · refine (endpoint.guard.blurs_caller service request.headers _).andThenSame fun admitted => ?_
    cases admitted with
    | error refusal => exact .done rfl
    | ok caller =>
      exact .ite (endpoint.blurs_handle service request pieces caller) (.done rfl)

/-- **A request makes the same calls, and has the same answer, whatever the causes of the
failures on its way.** -/
theorem Service.blurs_serve (service : Service) (request : Request) :
    (service.serve request).Blurs Eq := by
  refine .ite .abort ((blurs_limitRequests _ _ _).andThenSame fun limited => ?_)
  cases limited with
  | some response => exact .done rfl
  | none => exact (service.blurs_dispatch request).andThenSame fun response => .done rfl

/-- **Two runs of a request that differ only in why calls fail** have the same answer, and leave
the surroundings with the same contents. -/
theorem Service.serve_eq_of_samePlaces (service : Service) (request : Request)
    {world other : World} {outage variant : Outage} (hworlds : world.DiffersInCauses other)
    (hplaces : outage.SamePlaces variant) :
    (world.runDuring outage (service.serve request)).1 =
        (other.runDuring variant (service.serve request)).1 ∧
      (world.runDuring outage (service.serve request)).2.DiffersInCauses
        (other.runDuring variant (service.serve request)).2 := by
  have hrun := (service.blurs_serve request).run (World.answersAlike hplaces) hworlds
  exact ⟨hrun.1.eq, hrun.2⟩

/-- Requests cannot be counted, and nothing can be looked up in the store. -/
def silence (cause : FaultCause) : World :=
  promoted.setFault .cacheCount (some ⟨0, cause⟩)

/-- An outage in which nothing can be looked up in the store, with the error that is given. -/
def mute (error : StoreError) : Outage where
  cache _ _ := none
  store _ _ := some error

/-- A super administrator asks for an account that cannot be looked up: the answer is the one of
every internal failure. -/
theorem Service.serve_eq_of_samePlaces_silence :
    (silence .timedOut).DiffersInCauses (silence (.other "")) ∧
      (mute .timedOut).SamePlaces (mute (.corrupt "role")) ∧
      ((silence (.other "")).runDuring (mute (.corrupt "role"))
          (desk.serve (asking "GET" "/user/v1/accounts/1"))).1 =
        .finished (Problem.internal "").response := by
  have hworlds : (silence .timedOut).DiffersInCauses (silence (.other "")) := by
    refine ⟨_, rfl, fun kind => ?_⟩
    by_cases hkind : kind = .cacheCount
    · simp [silence, World.setFault, hkind]
    · simp [silence, World.setFault, hkind]
  have hplaces : (mute .timedOut).SamePlaces (mute (.corrupt "role")) :=
    ⟨fun _ _ => rfl, fun _ _ => rfl⟩
  refine ⟨hworlds, hplaces, ?_⟩
  rw [← (serve_eq_of_samePlaces desk _ hworlds hplaces).1]
  decide +kernel

end Http
end AccountAccess
