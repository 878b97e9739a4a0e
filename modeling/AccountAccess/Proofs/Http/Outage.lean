import AccountAccess.Proofs.Http.Course
import AccountAccess.Proofs.Service.Outage

/-!
# Guards in an outage

A guard never lets a request pass because something could not be found out.  Each of its
questions fails closed: a session that cannot be read is no session, an account that cannot be
looked up is no account, and codes that cannot be read grant nothing.  What needs no question,
the rights of a super administrator and the account of a young snapshot, needs no luck either.

So an outage can keep a caller out, but whom a guard lets pass in an outage it would have let
pass without it, and it finds out the same about the caller.

## Why this is not monotonicity

A call that fails may be followed by calls that would not have been made otherwise, so the two runs
cannot be compared call by call.  Failing closed is a property of the tree: on every path on which a
call fails, a refusal is all that can come of it.  A run that ends with a caller has therefore had
all its calls answered, and the run without the outage is the same run.

## Main results

* `failsClosed_identify`, `failsClosed_check`, `failsClosed_partner`: the questions of a guard.
* `Guard.failsClosed_caller`: every guard fails closed.
* `Guard.caller_of_outage`: whom a guard lets pass in an outage, it lets pass without it.
-/

namespace AccountAccess

open Procedure (Refuses FailsClosed)

namespace Session

/-! ## Questions that fail closed -/

theorem failsClosed_resolve (token : String) : FailsClosed (resolve token) :=
  (Procedure.failsClosed_cache _).bind (fun e => ⟨e, rfl⟩) fun _ => trivial

/-- A snapshot is not a question that could fail; only what is fetched is one. -/
theorem failsClosed_findAccount {id : Int64}
    {fetch : Procedure (Except StoreError (Option Account))} (hfetch : FailsClosed fetch) :
    FailsClosed (findAccount id fetch) := by
  refine ⟨fun answer hfails => hfails.elim, fun (young : Option Account) => ?_⟩
  cases young with
  | some account => trivial
  | none =>
    refine hfetch.bind (fun e => ⟨e, rfl⟩) fun found => ?_
    cases found with
    | none => trivial
    | some account => exact ⟨fun answer hfails => hfails.elim, fun _ => trivial⟩

theorem failsClosed_identify (headers : Http.Headers) : FailsClosed (identify headers) := by
  unfold identify
  cases bearerToken headers with
  | error refusal => trivial
  | ok token =>
    dsimp only
    rw [identifyToken_eq]
    refine (failsClosed_resolve token).bind (fun e => ⟨_, rfl⟩) fun found => ?_
    cases found with
    | none => trivial
    | some owner =>
      exact .ite trivial ((failsClosed_findAccount (Procedure.failsClosed_store _)).bind
        (fun e => ⟨_, rfl⟩) fun result => trivial)

end Session

namespace Grant

theorem failsClosed_check (service : String) (identity : Identity) (route : Route) :
    FailsClosed (check service identity route) := by
  unfold check
  refine .ite trivial ((Procedure.failsClosed_cache _).bind (fun e => ⟨_, rfl⟩) fun found => ?_)
  cases found with
  | true => trivial
  | false => trivial

end Grant

namespace Partner

/-- A secret that cannot be read is none, and codes that cannot be read grant nothing. -/
theorem failsClosed_partnerAt (primitives : Primitives) (service : String) (window : Int64)
    (headers : Http.Headers) (route : Route) (now : Int64) :
    FailsClosed (partnerAt primitives service window headers route now) := by
  unfold partnerAt
  cases Credentials.ofHeaders? headers with
  | none => trivial
  | some credentials =>
    refine .ite trivial ((Procedure.failsClosed_cache _).bind (fun e => ⟨_, rfl⟩)
      fun (secret : Option String) => ?_)
    cases secret with
    | none => trivial
    | some secret =>
      dsimp only
      generalize hasSignature primitives.sign secret
        (payload credentials.partner credentials.timestamp) credentials.signature = signed
      refine .ite trivial ((Procedure.failsClosed_cache _).bind (fun e => ⟨_, rfl⟩)
        fun (found : Bool) => ?_)
      cases found with
      | true => trivial
      | false => trivial

theorem failsClosed_partner (primitives : Primitives) (service : String) (window : Int64)
    (headers : Http.Headers) (route : Route) :
    FailsClosed (partner primitives service window headers route) :=
  ⟨fun _ hfails => hfails.elim, fun now =>
    failsClosed_partnerAt primitives service window headers route (Int64.ofInt now.seconds)⟩

end Partner

namespace Http

variable {service : Service} {headers : Headers} {route : Route}

theorem failsClosed_of_identity {next : Identity → Procedure (Except Refusal Caller)}
    (hnext : ∀ identity, FailsClosed (next identity)) :
    FailsClosed (do
      match ← Session.identify headers with
      | .error refusal => return .error refusal
      | .ok identity => next identity) :=
  (Session.failsClosed_identify headers).bind (fun refusal => ⟨refusal, rfl⟩) hnext

/-! ## Guards -/

/-- **Every guard fails closed.** -/
theorem Guard.failsClosed_caller (guard : Guard) (service : Service) (headers : Headers)
    (route : Route) : FailsClosed (guard.caller service headers route) := by
  cases guard with
  | anyone => trivial
  | session => exact failsClosed_of_identity fun identity => trivial
  | granted =>
    refine failsClosed_of_identity fun identity => ?_
    exact (Grant.failsClosed_check _ identity route).bind (fun refusal => ⟨refusal, rfl⟩)
      fun _ => trivial
  | staff => exact failsClosed_of_identity fun identity => trivial
  | superAdmin => exact failsClosed_of_identity fun identity => trivial
  | partner =>
    exact (Partner.failsClosed_partner _ _ _ headers route).bind (fun refusal => ⟨refusal, rfl⟩)
      fun name => trivial

/-- **Whom a guard lets pass in an outage, it lets pass without it**, and it finds out the same
about the caller.  Without the outage no call fails, and the cache answers. -/
theorem Guard.caller_of_outage (guard : Guard) (service : Service) (headers : Headers)
    (route : Route) (world : World) (outage : Outage) {caller : Caller}
    (h : (world.runDuring outage (guard.caller service headers route)).1 =
      .finished (.ok caller)) :
    (world.unhindered.run (guard.caller service headers route)).1 = .finished (.ok caller) ∧
      (world.unhindered.run (guard.caller service headers route)).2 =
        (world.runDuring outage (guard.caller service headers route)).2.unhindered :=
  (guard.failsClosed_caller service headers route).run (World.hinders_answerDuring outage) rfl h

deriving instance DecidableEq for Caller

/-- Neither accounts nor codes can be asked for. -/
def blackout : Outage where
  cache _ call := if call.kind = .cacheAnyMember then some .server else none
  store _ _ := some .timedOut

/-- The account that is signed in has been made a super administrator, which its snapshot
shows. -/
def promoted : World :=
  { Session.signedInOnce with
    snapshots := (Snapshots.empty 1 60000).remember 0 1
      { MemoryStore.alice with isSuperAdmin := true } }

/-- In an outage a super administrator passes by a snapshot, as without it. -/
theorem Guard.caller_of_outage_promoted :
    (promoted.runDuring blackout (Guard.granted.caller desk (Session.showing "first" [])
        ⟨"GET", "/user/v1/accounts/{id}"⟩)).1 =
      .finished (.ok (.account (.ofAccount { MemoryStore.alice with isSuperAdmin := true }
        .web "first"))) ∧
    (promoted.unhindered.run (Guard.granted.caller desk (Session.showing "first" [])
        ⟨"GET", "/user/v1/accounts/{id}"⟩)).1 =
      .finished (.ok (.account (.ofAccount { MemoryStore.alice with isSuperAdmin := true }
        .web "first"))) := by
  have hpasses : (promoted.runDuring blackout (Guard.granted.caller desk
      (Session.showing "first" []) ⟨"GET", "/user/v1/accounts/{id}"⟩)).1 =
        .finished (.ok (.account (.ofAccount { MemoryStore.alice with isSuperAdmin := true }
          .web "first"))) := by
    decide +kernel
  exact ⟨hpasses, (Guard.caller_of_outage .granted desk _ _ promoted blackout hpasses).1⟩

end Http
end AccountAccess
