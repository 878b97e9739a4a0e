import AccountAccess.Proofs.Cache.Key
import AccountAccess.Proofs.Http.Handlers
import AccountAccess.Proofs.Http.Mounting
import AccountAccess.Proofs.Session.Acting

/-!
# The course of a request

A request is counted, then the interface is found whose path fits, its guard is asked and the
method is looked at; only then is the call carried out.  `Course` lists what can become of a
request, by the stage that ends it, and every request takes exactly one course.

A call is carried out in one of the cases only.  By then its guard has found out who is calling,
and it is this caller for whom the call is carried out.  In all the other cases cache and store
stand as before, apart from the counter of the client, and the answer is one that does not
depend on them.

## What a course says

* Of counting: it makes one call, and the entries of all other keys stay (`Counts`).  A client over
  the limit has made this call and no other.
* Of a refusal: the guard has been asked and cache and store are `Untouched`.
* Of a call that is carried out: the caller has been cleared for it in the surroundings after
  counting (`Clearance`), which says what had to be found there, and the interface does for this
  caller what it is there for (`Endpoint.Does`).

## Main results

* `run_limiting`: counting a request in any surroundings.
* `Guard.Passes.clearance`: whom a guard lets pass has been cleared.
* `course_serve`, `Course.unique`: a request takes a course, and no other.
* `course_iff`: both together.
* `untouched_of_reading`: a request with a method that reads changes nothing but the counter.
-/

namespace AccountAccess
namespace Http

/-! ## Counting -/

section Counting

variable (service : Service) (request : Request)

/-- The key under which the requests of a client are counted. -/
def requestsKey : String :=
  (CacheKey.requests (clientName request.headers request.remote)).text

/-- The call that counts a request. -/
def Service.counting : CacheCall :=
  .count (requestsKey request) service.settings.rateWindow

/-- Counts a request, and answers it if the client is over the limit. -/
def Service.limiting : Procedure (Option Response) :=
  limitRequests service.settings.rateWindow service.settings.rateLimit
    (clientName request.headers request.remote)

/-- A request has been counted, and nothing else was asked or has changed. -/
structure Counts (world counted : World) : Prop where
  log : counted.log = .cache (service.counting request) :: world.log
  clock : counted.clock = world.clock
  store : counted.store = world.store
  snapshots : counted.snapshots = world.snapshots
  entry : ∀ key, key ≠ requestsKey request → counted.entry key = world.entry key

theorem counts_answer (world : World) :
    Counts service request world (World.answer (.cache (service.counting request)) world).2 := by
  have hentry : ∀ key, key ≠ requestsKey request →
      (World.answer (.cache (service.counting request)) world).2.entry key = world.entry key := by
    intro key hne
    exact world.entry_answer _ fun hmem => hne (List.mem_singleton.1 hmem)
  obtain ⟨faults, cache, hworld, -⟩ := World.answer_cache_world world (service.counting request)
  rw [hworld] at hentry ⊢
  exact ⟨rfl, rfl, rfl, rfl, hentry⟩

/-- **Counting a request in any surroundings.** -/
theorem run_limiting (world : World) :
    ∃ outcome counted, world.run (service.limiting request) = (outcome, counted) ∧
      Counts service request world counted ∧
      ∀ response, outcome = .finished (some response) →
        response = .failure 429 (overLimitMessage service.settings.rateWindow) := by
  have hcounts : Counts service request world (World.answer (.cache (.count
      (CacheKey.requests (clientName request.headers request.remote)).text
      service.settings.rateWindow)) world).2 :=
    counts_answer service request world
  rw [Service.limiting, limitRequests, Procedure.cache, Dialogue.call_bind, World.run, Dialogue.run]
  rcases hanswer : World.answer (.cache (.count _ _)) world with ⟨answer | _, counted⟩
  · rw [hanswer] at hcounts
    rcases answer with e | count
    · exact ⟨_, counted, rfl, hcounts, fun _ h => absurd (Outcome.finished.inj h) (by simp)⟩
    · dsimp only
      split
      · refine ⟨_, counted, rfl, hcounts, fun response h => ?_⟩
        exact (Option.some.inj (Outcome.finished.inj h)).symm
      · exact ⟨_, counted, rfl, hcounts, fun _ h => absurd (Outcome.finished.inj h) (by simp)⟩
  · rw [hanswer] at hcounts
    exact ⟨.aborted, counted, rfl, hcounts, fun _ h => absurd h (by simp)⟩

end Counting

variable {service : Service} {request : Request} {world counted after : World}
  {endpoint : Endpoint} {caller : Caller}

/-- Cache and store stand as before, apart from the counter of the client. -/
structure Untouched (request : Request) (before after : World) : Prop where
  entry : ∀ key, key ≠ requestsKey request → after.entry key = before.entry key
  store : after.store = { before.store with accountReads := after.store.accountReads }

theorem Counts.untouched (h : Counts service request world counted) :
    Untouched request world counted := by
  refine ⟨h.entry, ?_⟩
  rw [h.store]

theorem Untouched.spares {between : World} (h : Untouched request world between)
    (h' : World.Spares between after) : Untouched request world after := by
  refine ⟨fun key hne => ?_, ?_⟩
  · rw [h'.entry, h.entry key hne]
  · rw [h'.store, h.store]

/-! ## Who may call which interface -/

/-- **What has been found out about a caller** before an interface is called for it. -/
inductive Clearance (service : Service) (request : Request) (world : World) :
    Endpoint → Caller → Prop where
  | anyone {endpoint : Endpoint}
      (hendpoint : endpoint ∈ [.loginWithPassword, .loginWithCode, .resetPassword]) :
      Clearance service request world endpoint .anyone
  | session {endpoint : Endpoint} {identity : Identity}
      (hendpoint : endpoint ∈ [.logout, .myself, .changePassword])
      (hidentity : Identified world request.headers identity) :
      Clearance service request world endpoint (.account identity)
  | account {identity : Identity} (hidentity : Identified world request.headers identity)
      (hgranted : identity.isSuperAdmin = true ∨
        ∃ code ∈ ["*", service.settings.serviceCode ++ ":*",
            service.settings.serviceCode ++ ":" ++ request.method ++ ":" ++
              (service.base ++ "/v1/accounts/{id}")],
          code ∈ world.cache.membersAt world.clock (Grant.grantsKey identity.account.id)) :
      Clearance service request world .account (.account identity)
  | accountCodes {identity : Identity} (hidentity : Identified world request.headers identity)
      (hstaff : identity.isStaff = true) :
      Clearance service request world .accountCodes (.account identity)
  | refreshCodes {identity : Identity} (hidentity : Identified world request.headers identity)
      (hadmin : identity.isSuperAdmin = true) :
      Clearance service request world .refreshCodes (.account identity)
  | ping {name : String}
      (hpartner : (world.run (Partner.partner service.primitives service.settings.serviceCode
        service.settings.partnerWindow request.headers
        (service.route .ping request.method))).1 = .finished (.ok name)) :
      Clearance service request world .ping (.partner name)

/-- A guard that lets a caller pass has found out what its interface requires. -/
theorem Guard.Passes.clearance
    (h : endpoint.guard.Passes service request.headers (service.route endpoint request.method)
      world caller)
    (hmethod : endpoint.acceptsMethod request.method = true) :
    Clearance service request world endpoint caller := by
  have hpath := service.path_route endpoint request.method
  have hroute := service.method_route hmethod
  cases endpoint with
  | loginWithPassword | loginWithCode | resetPassword =>
    cases h
    exact .anyone (by decide)
  | logout | myself | changePassword =>
    cases h with
    | session hidentity => exact .session (by decide) hidentity
  | account =>
    cases h with
    | granted hidentity hgranted =>
      refine .account hidentity ?_
      rwa [Grant.candidates, Route.code, hpath, hroute] at hgranted
  | accountCodes =>
    cases h with
    | staff hidentity hstaff => exact .accountCodes hidentity hstaff
  | refreshCodes =>
    cases h with
    | superAdmin hidentity hadmin => exact .refreshCodes hidentity hadmin
  | ping =>
    cases h with
    | partner hpartner => exact .ping hpartner

/-! ## The course of a request -/

/-- **What becomes of a request**: its outcome and the surroundings that it leaves. -/
inductive Course (service : Service) (request : Request) (world : World) :
    Outcome Response × World → Prop where
  /-- The request cannot be counted, because the clock ends before the window does. -/
  | stopped {counted : World}
      (hlimit : world.run (service.limiting request) = (.aborted, counted))
      (hcounts : Counts service request world counted) :
      Course service request world (.aborted, counted)
  /-- The client is over the limit. -/
  | overLimit {response : Response} {counted : World}
      (hlimit : world.run (service.limiting request) = (.finished (some response), counted))
      (hcounts : Counts service request world counted)
      (hresponse : response = .failure 429 (overLimitMessage service.settings.rateWindow)) :
      Course service request world (.finished (service.sent request response), counted)
  /-- No interface has a path that fits. -/
  | unmatched {counted : World}
      (hlimit : world.run (service.limiting request) = (.finished none, counted))
      (hcounts : Counts service request world counted)
      (hfind : service.find? request.path = none) :
      Course service request world (.finished (service.sent request (.plain 404)), counted)
  /-- The guard of the interface refuses the request. -/
  | refused {counted after : World} {endpoint : Endpoint} {pieces : List String}
      {refusal : Refusal}
      (hlimit : world.run (service.limiting request) = (.finished none, counted))
      (hcounts : Counts service request world counted)
      (hfind : service.find? request.path = some (endpoint, pieces))
      (hguard : counted.run (endpoint.guard.caller service request.headers
        (service.route endpoint request.method)) = (.finished (.error refusal), after))
      (huntouched : Untouched request world after) :
      Course service request world
        (.finished (service.sent request (.ofRefusal refusal)), after)
  /-- The interface cannot be called with the method. -/
  | wrongMethod {counted after : World} {endpoint : Endpoint} {pieces : List String}
      {caller : Caller}
      (hlimit : world.run (service.limiting request) = (.finished none, counted))
      (hcounts : Counts service request world counted)
      (hfind : service.find? request.path = some (endpoint, pieces))
      (hguard : counted.run (endpoint.guard.caller service request.headers
        (service.route endpoint request.method)) = (.finished (.ok caller), after))
      (hmethod : endpoint.acceptsMethod request.method = false)
      (huntouched : Untouched request world after) :
      Course service request world (.finished (service.sent request (.plain 405)), after)
  /-- The call is carried out for the caller that the guard has let pass: it does what the
  interface does for this caller. -/
  | handled {counted after : World} {endpoint : Endpoint} {pieces : List String}
      {caller : Caller}
      (hlimit : world.run (service.limiting request) = (.finished none, counted))
      (hcounts : Counts service request world counted)
      (hfind : service.find? request.path = some (endpoint, pieces))
      (hguard : counted.run (endpoint.guard.caller service request.headers
        (service.route endpoint request.method)) = (.finished (.ok caller), after))
      (hmethod : endpoint.acceptsMethod request.method = true)
      (hcleared : Clearance service request counted endpoint caller)
      (huntouched : Untouched request world after)
      (hdoes : endpoint.Does service request pieces after caller
        (after.run (endpoint.handle service request pieces caller))) :
      Course service request world (after.run do
        let response ← endpoint.handle service request pieces caller
        return service.sent request response.logged)

theorem logged_ofRefusal (refusal : Refusal) :
    (Response.ofRefusal refusal).logged = .ofRefusal refusal := by
  have hstatus : (Response.ofRefusal refusal).status < 500 := by
    cases refusal with
    | _ => decide
  rw [Response.logged, if_neg fun h => Nat.not_le.2 hstatus h.1]

theorem serve_eq (hmounted : service.canBeMounted = true) (request : Request) :
    service.serve request = service.limiting request >>= fun limited =>
      match limited with
      | some response => return service.sent request response
      | none => do
        let response ← service.dispatch request
        return service.sent request response.logged := by
  unfold Service.serve
  rw [if_neg (by simp [hmounted])]
  rfl

/-- Every request takes a course, in whichever surroundings and wherever the interfaces are
mounted. -/
theorem course_serve (hmounted : service.canBeMounted = true) (request : Request)
    (world : World) : Course service request world (world.run (service.serve request)) := by
  obtain ⟨outcome, counted, hlimit, hcounts, hmessage⟩ := run_limiting service request world
  rw [serve_eq hmounted]
  cases outcome with
  | aborted =>
    rw [World.run_bind_of_aborted hlimit]
    exact .stopped hlimit hcounts
  | finished limited =>
    rw [World.run_bind hlimit]
    cases limited with
    | some response => exact .overLimit hlimit hcounts (hmessage response rfl)
    | none =>
      dsimp only
      unfold Service.dispatch
      cases hfind : service.find? request.path with
      | none => exact .unmatched hlimit hcounts hfind
      | some found =>
        obtain ⟨endpoint, pieces⟩ := found
        obtain ⟨result, after, hguard, hspares, hpasses⟩ := endpoint.guard.asks_caller service
          request.headers (service.route endpoint request.method) counted
        have huntouched : Untouched request world after := hcounts.untouched.spares hspares
        dsimp only
        rw [Dialogue.bind_assoc, World.run_bind hguard]
        cases result with
        | error refusal =>
          -- A long answer loses its body if its status is that of a failure; no refusal has one.
          have hrefused := Course.refused hlimit hcounts hfind hguard huntouched
          rwa [← logged_ofRefusal refusal] at hrefused
        | ok caller =>
          dsimp only
          by_cases hmethod : endpoint.acceptsMethod request.method = true
          · rw [if_pos hmethod]
            exact .handled hlimit hcounts hfind hguard hmethod
              ((hpasses caller rfl).clearance hmethod) huntouched
              (Endpoint.does_handle (hpasses caller rfl) request pieces after)
          · rw [if_neg hmethod]
            exact .wrongMethod hlimit hcounts hfind hguard
              (eq_false_of_ne_true hmethod) huntouched

theorem Course.unique {served other : Outcome Response × World}
    (h : Course service request world served) (h' : Course service request world other) :
    served = other := by
  cases h <;> cases h' <;> grind

/-- **Every request takes its course, and there is one.**  A request that is over the limit has
made the one call that counts it.  One that a guard refuses is answered with the refusal, and
cache and store stand as before, apart from the counter.  A call is carried out only for a
caller who may make it, and it does for this caller what the interface is there for. -/
theorem course_iff (hmounted : service.canBeMounted = true) (request : Request) (world : World)
    (served : Outcome Response × World) :
    Course service request world served ↔ served = world.run (service.serve request) := by
  have hserve := course_serve hmounted request world
  constructor
  · intro hcourse
    exact hcourse.unique hserve
  · rintro rfl
    exact hserve

/-- A service with the settings that it has when nothing is said. -/
def desk : Service where
  settings := {}
  primitives := Session.plain

/-- A request of the account that is signed in. -/
def asking (method target : String) : Request where
  method
  target
  headers := Session.showing "first" (Text.toBytes "Web")

/-- The account has no code for the details of accounts, but may sign out.  Its token stands for it
until then and for nobody afterwards. -/
theorem course_iff_desk :
    desk.canBeMounted = true ∧
      (Course desk (asking "GET" "/user/v1/accounts/1") Session.signedInOnce
          (Session.signedInOnce.run (desk.serve (asking "GET" "/user/v1/accounts/1"))) ∧
        (Session.signedInOnce.run (desk.serve (asking "GET" "/user/v1/accounts/1"))).1 =
          .finished (.ofRefusal .forbidden)) ∧
      Course desk (asking "POST" "/user/v1/auth/logout") Session.signedInOnce
          (Session.signedInOnce.run (desk.serve (asking "POST" "/user/v1/auth/logout"))) ∧
        (Session.signedInOnce.run (desk.serve (asking "POST" "/user/v1/auth/logout"))).1 =
          .finished (.success noData) ∧
        Session.ownerOf Session.signedInOnce "first" = some ⟨1, .web⟩ ∧
        Session.ownerOf (Session.signedInOnce.run
          (desk.serve (asking "POST" "/user/v1/auth/logout"))).2 "first" = none := by
  have hmounted : desk.canBeMounted = true := by decide +kernel
  refine ⟨hmounted, ⟨(course_iff hmounted _ _ _).2 rfl, ?_⟩, (course_iff hmounted _ _ _).2 rfl, ?_,
    ?_, ?_⟩
  · decide +kernel
  · decide +kernel
  · decide
  · decide +kernel

/-! ## Requests that only read -/

/-- **Reading changes nothing**: after a request with a method that reads, cache and store stand
as before, apart from the counter of the client. -/
theorem untouched_of_reading (hmounted : service.canBeMounted = true)
    (hmethod : request.method = "GET" ∨ request.method = "HEAD") (world : World) :
    Untouched request world (world.run (service.serve request)).2 := by
  have hcourse := course_serve hmounted request world
  generalize world.run (service.serve request) = served at hcourse
  cases hcourse with
  | stopped _ hcounts => exact hcounts.untouched
  | overLimit _ hcounts _ => exact hcounts.untouched
  | unmatched _ hcounts _ => exact hcounts.untouched
  | refused _ _ _ _ huntouched => exact huntouched
  | wrongMethod _ _ _ _ _ huntouched => exact huntouched
  | @handled counted after endpoint pieces caller _ _ _ _ haccepts _ huntouched hdoes =>
    have hreading : endpoint.isReading = true := by
      by_contra hwrites
      rw [Endpoint.acceptsMethod, if_neg hwrites, beq_iff_eq] at haccepts
      rw [haccepts] at hmethod
      exact absurd hmethod (by decide)
    have hsent := run_snd_map (endpoint.handle service request pieces caller)
      (fun response => service.sent request response.logged) after
    exact huntouched.spares (hsent ▸ hdoes.spares hreading)

end Http
end AccountAccess
