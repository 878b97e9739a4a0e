import AccountAccess.Proofs.Grant.Revocation
import AccountAccess.Proofs.Grant.Route
import AccountAccess.Proofs.Http.Guards
import AccountAccess.Proofs.Session.Acting

/-!
# The code of a route allows that route only

A code is a service, a method and a path with colons between them.  Service and path may hold
colons and asterisks themselves, so the parts cannot be read back from a code alone.  Two codes of
one service begin alike, though, and once that beginning is taken off, the first colon ends the
method.  A wildcard has no second colon there.

A decision asks whether one of a few candidates is written.  It therefore rests on the candidates
only: with one code written it is the question which candidates are that code, and one code more
is noticed only if it is a candidate.  Accounts have three candidates and partners two.

## What has to be assumed

Routes are taken as the service makes them (`Route.IsProper`): with a path under some root, and with
a method in which no colon stands.  Nothing is assumed of the name of the service.

## Main results

* `code_eq_iff`: the codes of one service tell its routes apart.
* `code_mem_candidates_iff`: a code is a candidate for its own route only.
* `run_check_decides`: a check decides whether an identity may use a route.
* `mayUse_granting`: a code that is written for an account lets it use the routes it allows.
* `Vouched.run`: a request that is vouched for is ruled on by what the partner may use.
* `code_allows_own_route`: all of this, for accounts and for partners.
-/

namespace AccountAccess

namespace Route

variable {route other : Route} {root method path service : String}

/-! ## Routes as the service makes them -/

/-- A route as the service makes it: a path under some root, and a method in which no colon
stands. -/
def IsProper (route : Route) : Prop :=
  ∃ root method path, ':' ∉ method.toList ∧ route = under root method path

theorem toUpper_eq_colon_iff {c : Char} : c.toUpper = ':' ↔ c = ':' := by
  rw [← Char.toNat_inj, ← Char.toNat_inj, Text.toNat_toUpper, show ':'.toNat = 58 from rfl]
  split
  · constructor <;> omega
  · exact Iff.rfl

theorem IsProper.colon_notMem (h : route.IsProper) : ':' ∉ route.method.toList := by
  obtain ⟨root, method, path, hmethod, rfl⟩ := h
  rw [under, String.toList_ofList, List.mem_map]
  rintro ⟨c, hc, hcolon⟩
  exact hmethod (toUpper_eq_colon_iff.1 hcolon ▸ hc)

/-! ## Codes of one service -/

theorem toList_code (route : Route) (service : String) : (route.code service).toList =
    service.toList ++ ':' :: (route.method.toList ++ ':' :: route.path.toList) := by
  simp [code]

/-- **The codes of one service tell its routes apart.** -/
theorem code_eq_iff (hroute : ':' ∉ route.method.toList) (hother : ':' ∉ other.method.toList) :
    route.code service = other.code service ↔
      route.method = other.method ∧ route.path = other.path := by
  constructor
  · intro h
    rw [← String.toList_inj, toList_code, toList_code] at h
    have hback := (List.cons.inj (List.append_cancel_left h)).2
    obtain ⟨hmethod, hpath⟩ := Text.eq_of_append_mark hback hroute hother
    exact ⟨String.toList_inj.1 hmethod, String.toList_inj.1 hpath⟩
  · rintro ⟨hmethod, hpath⟩
    rw [code, code, hmethod, hpath]

theorem code_ne_everything (route : Route) (service : String) :
    route.code service ≠ Grant.everything :=
  Partner.ne_everything (by simp [toList_code])

theorem code_ne_everythingOf (route : Route) (service : String) :
    route.code service ≠ Grant.everythingOf service := by
  intro h
  have hwildcard : (Grant.everythingOf service).toList = service.toList ++ ':' :: ['*'] := by
    simp [Grant.everythingOf]
  rw [← String.toList_inj, toList_code, hwildcard] at h
  have hback := (List.cons.inj (List.append_cancel_left h)).2
  have hcolon : ':' ∈ route.method.toList ++ ':' :: route.path.toList := by simp
  rw [hback] at hcolon
  exact absurd hcolon (by decide)

theorem code_mem_candidates_iff : route.code service ∈ Grant.candidates service other ↔
    route.code service = other.code service := by
  rw [Grant.candidates, List.mem_cons, List.mem_pair,
    or_iff_right (code_ne_everything route service),
    or_iff_right (code_ne_everythingOf route service)]

theorem code_mem_partner_candidates_iff : route.code service ∈ Partner.candidates service other ↔
    route.code service = other.code service := by
  rw [Partner.candidates, List.mem_pair, or_iff_right (code_ne_everythingOf route service)]

end Route

namespace World

/-! ## One code in a set -/

/-- One text is written in the set at a key, and nothing else. -/
def HoldsOnly (world : World) (key text : String) : Prop :=
  ∀ other, other ∈ world.cache.membersAt world.clock key ↔ other = text

theorem HoldsOnly.exists_mem_iff {world : World} {key text : String} {P : String → Prop}
    (h : world.HoldsOnly key text) :
    (∃ other ∈ world.cache.membersAt world.clock key, P other) ↔ P text := by
  constructor
  · rintro ⟨other, hmem, hP⟩
    rwa [(h other).1 hmem] at hP
  · intro hP
    exact ⟨text, (h text).2 rfl, hP⟩

theorem holdsOnly_adding {world : World} {key text : String}
    (h : world.cache.membersAt world.clock key = []) :
    (world.adding key text).HoldsOnly key text := by
  intro other
  rw [clock_adding, mem_membersAt_adding, h]
  simp

end World

/-! ## Accounts -/

namespace Grant

variable {world : World} {service : String} {identity : Identity} {route : Route}

/-- An identity may use a route: it is a super administrator, or the cache says that one of the
codes that allow the route is written for its account. -/
def MayUse (world : World) (service : String) (identity : Identity) (route : Route) : Prop :=
  identity.isSuperAdmin = true ∨ world.answersCache .cacheAnyMember = true ∧
    ∃ code ∈ world.cache.membersAt world.clock (grantsKey identity.account.id),
      code ∈ candidates service route

theorem every_check_result (service : String) (identity : Identity) (route : Route) :
    (check service identity route).Every (fun _ => True)
      fun result => result = .ok () ∨ result = .error .forbidden := by
  rw [check]
  split
  · exact Or.inl rfl
  · refine ⟨trivial, fun (answer : Except CacheError Bool) => ?_⟩
    rcases answer with e | _ | _
    · exact Or.inr rfl
    · exact Or.inr rfl
    · exact Or.inl rfl

/-- **A check decides whether the identity may use the route.** -/
theorem run_check_decides (world : World) (service : String) (identity : Identity)
    (route : Route) :
    MayUse world service identity route ∧
        (world.run (check service identity route)).1 = .finished (.ok ()) ∨
      ¬MayUse world service identity route ∧
        (world.run (check service identity route)).1 = .finished (.error .forbidden) := by
  obtain ⟨result, after, hrun, -, hresult⟩ := run_check_cases world service identity route
  have hmayUse : result = .ok () ↔ MayUse world service identity route := by
    rw [hresult, MayUse]
    exact or_congr_right (and_congr_right fun _ => exists_congr fun _ => and_comm)
  have hends : result = .ok () ∨ result = .error .forbidden :=
    (every_check_result service identity route).result (congrArg Prod.fst hrun)
  rw [hrun]
  rcases hends with rfl | rfl
  · exact Or.inl ⟨hmayUse.1 rfl, rfl⟩
  · exact Or.inr ⟨hmayUse.not.1 (by simp), rfl⟩

theorem run_check_congr {after : World}
    (h : MayUse after service identity route ↔ MayUse world service identity route) :
    (after.run (check service identity route)).1 =
      (world.run (check service identity route)).1 := by
  rcases run_check_decides world service identity route with ⟨hmay, hrun⟩ | ⟨hnot, hrun⟩
  · rcases run_check_decides after service identity route with ⟨-, hrun'⟩ | ⟨hnot', -⟩
    · rw [hrun, hrun']
    · exact absurd (h.2 hmay) hnot'
  · rcases run_check_decides after service identity route with ⟨hmay', -⟩ | ⟨-, hrun'⟩
    · exact absurd (h.1 hmay') hnot
    · rw [hrun, hrun']

/-- The surroundings in which a code is written for an account as well. -/
def granting (world : World) (account : Int64) (code : String) : World :=
  world.adding (grantsKey account) code

/-- **A code that is written for an account lets that account use the routes it allows**, and
nothing else. -/
theorem mayUse_granting (world : World) (account : Int64) (code : String) :
    MayUse (granting world account code) service identity route ↔
      MayUse world service identity route ∨ world.answersCache .cacheAnyMember = true ∧
        identity.account.id = account ∧ code ∈ candidates service route := by
  have hkey : grantsKey identity.account.id = grantsKey account ↔
      identity.account.id = account := by
    rw [CacheKey.text_eq_text_iff, CacheKey.grants.injEq]
  rw [MayUse, MayUse, granting, World.answersCache_adding, World.clock_adding,
    World.exists_mem_membersAt_adding, hkey, and_or_left, or_assoc]

end Grant

/-! ## Partners -/

namespace Partner

open Http (Headers)

variable {primitives : Primitives} {service : String} {window : Int64} {headers : Headers}
  {route : Route} {now : Int64} {world : World} {credentials : Credentials} {secret : String}

/-- A request is made by the partner it names: its time is near and it is signed with the secret
that the cache finds. -/
structure Vouched (primitives : Primitives) (window : Int64) (headers : Headers) (now : Int64)
    (world : World) (credentials : Credentials) (secret : String) : Prop where
  presents : Presents headers credentials
  near : |now.toInt - credentials.timestamp.toInt| ≤ |window.toInt|
  secret_eq : secretOf world credentials.partner = some secret
  signed : IsSigned primitives secret credentials

/-- **A vouched request is ruled on by what the partner may use.** -/
theorem Vouched.run (h : Vouched primitives window headers now world credentials secret)
    (service : String) (route : Route) :
    MayUse world service route credentials.partner ∧
        (world.run (partnerAt primitives service window headers route now)).1 =
          .finished (.ok credentials.partner) ∨
      ¬MayUse world service route credentials.partner ∧
        (world.run (partnerAt primitives service window headers route now)).1 =
          .finished (.error .forbidden) := by
  obtain ⟨ruling, after, hrun, -, hruling⟩ :=
    run_partnerAt primitives service window headers route now world
  rw [hrun]
  by_cases hmay : MayUse world service route credentials.partner
  · have hadmitted := Ruling.admitted ⟨h.presents, h.near, h.secret_eq, h.signed, hmay⟩
    exact Or.inl ⟨hmay, congrArg _ (hruling.unique hadmitted)⟩
  · have hforbidden := Ruling.forbidden h.presents h.near h.secret_eq h.signed hmay
    exact Or.inr ⟨hmay, congrArg _ (hruling.unique hforbidden)⟩

/-- **One code more is noticed only if the ruling looks for it**, and looks for it under the name
that the request presents. -/
theorem of_run_granting_ne {partner code : String}
    (h : ((granting world partner code).run
        (partnerAt primitives service window headers route now)).1 ≠
      (world.run (partnerAt primitives service window headers route now)).1) :
    ∃ credentials, Presents headers credentials ∧ credentials.partner = partner ∧
      code ∈ candidates service route := by
  by_contra hnot
  obtain ⟨ruling, after, hrun, -, hruling⟩ :=
    run_partnerAt primitives service window headers route now world
  obtain ⟨other, after', hrun', -, hother⟩ :=
    run_partnerAt primitives service window headers route now (granting world partner code)
  have hgranting := hruling.granting fun credentials hpresents hpartner hmem =>
    hnot ⟨credentials, hpresents, hpartner, hmem⟩
  rw [hrun, hrun', hother.unique hgranting] at h
  exact h rfl

end Partner

/-! ## The code of a route -/

namespace Grant

variable {service : String} {route other : Route}

/-- **The code of a route allows that route only.**  For routes as the service makes them, in any
service: the code tells method and path and is no wildcard.  So an account or a partner for which
this code and no other is written may use another route exactly if it is the same route.  In any
surroundings, writing one code more changes what is decided on a route only if that code is one of
the candidates, and written for the one who asks. -/
theorem code_allows_own_route (hroute : route.IsProper) (hother : other.IsProper) :
    (route.code service = other.code service ↔
      route.method = other.method ∧ route.path = other.path) ∧
    route.code service ≠ everything ∧ route.code service ≠ everythingOf service ∧
    (∀ (world : World) (identity : Identity), identity.isSuperAdmin = false →
      world.HoldsOnly (grantsKey identity.account.id) (route.code service) →
      world.answersCache .cacheAnyMember = true →
      (world.run (check service identity other)).1 = .finished
        (if route.method = other.method ∧ route.path = other.path then .ok ()
          else .error .forbidden)) ∧
    (∀ (world : World) (identity : Identity) (account : Int64) (code : String),
      ((granting world account code).run (check service identity route)).1 ≠
        (world.run (check service identity route)).1 →
      account = identity.account.id ∧ code ∈ candidates service route) ∧
    (∀ (primitives : Primitives) (window : Int64) (headers : Http.Headers) (now : Int64)
        (world : World) (credentials : Partner.Credentials) (secret : String),
      Partner.Vouched primitives window headers now world credentials secret →
      world.HoldsOnly (CacheKey.partnerGrants credentials.partner).text (route.code service) →
      world.answersCache .cacheAnyMember = true →
      (world.run (Partner.partnerAt primitives service window headers other now)).1 = .finished
        (if route.method = other.method ∧ route.path = other.path then .ok credentials.partner
          else .error .forbidden)) ∧
    (∀ (primitives : Primitives) (window : Int64) (headers : Http.Headers) (now : Int64)
        (world : World) (partner code : String),
      ((Partner.granting world partner code).run
          (Partner.partnerAt primitives service window headers route now)).1 ≠
        (world.run (Partner.partnerAt primitives service window headers route now)).1 →
      ∃ credentials, Partner.Presents headers credentials ∧ credentials.partner = partner ∧
        code ∈ Partner.candidates service route) := by
  have hcode : route.code service = other.code service ↔
      route.method = other.method ∧ route.path = other.path :=
    Route.code_eq_iff hroute.colon_notMem hother.colon_notMem
  refine ⟨hcode, route.code_ne_everything service, route.code_ne_everythingOf service, ?_, ?_,
    ?_, ?_⟩
  · intro world identity hadmin honly hanswers
    have hmayUse : MayUse world service identity other ↔
        route.method = other.method ∧ route.path = other.path := by
      rw [MayUse, hadmin, hanswers, honly.exists_mem_iff, Route.code_mem_candidates_iff, hcode]
      simp
    rcases run_check_decides world service identity other with ⟨hmay, hrun⟩ | ⟨hnot, hrun⟩
    · rw [hrun, if_pos (hmayUse.1 hmay)]
    · rw [hrun, if_neg (hmayUse.not.1 hnot)]
  · intro world identity account code hchanges
    by_contra hnot
    refine hchanges (run_check_congr ?_)
    rw [mayUse_granting, or_iff_left]
    exact fun h => hnot ⟨h.2.1.symm, h.2.2⟩
  · intro primitives window headers now world credentials secret hvouched honly hanswers
    have hmayUse : Partner.MayUse world service other credentials.partner ↔
        route.method = other.method ∧ route.path = other.path := by
      rw [Partner.mayUse_iff, hanswers, honly.exists_mem_iff,
        Route.code_mem_partner_candidates_iff, hcode]
      simp
    rcases hvouched.run service other with ⟨hmay, hrun⟩ | ⟨hnot, hrun⟩
    · rw [hrun, if_pos (hmayUse.1 hmay)]
    · rw [hrun, if_neg (hmayUse.not.1 hnot)]
  · intro primitives window headers now world partner code hchanges
    exact Partner.of_run_granting_ne hchanges

/-- A route with a colon and an asterisk in its path. -/
def filed : Route :=
  .under "/api/" "get" "/files:*"

/-- A route whose path is the beginning of that path. -/
def files : Route :=
  .under "/api" "GET" "/files"

/-- What a partner says of itself, signed with its secret. -/
def press : Partner.Credentials :=
  ⟨"press", 7, Partner.signature Session.plain.sign "secret" (Partner.payload "press" 7)⟩

/-- Its request. -/
def calling : Http.Headers :=
  [(Partner.nameField, Text.toBytes press.partner), (Partner.timestampField, Text.toBytes "7"),
    (Partner.signatureField, Text.toBytes press.signature)]

/-- Surroundings in which the partner has a secret and nobody has been granted anything. -/
def acquainted : World :=
  { Session.withAlice with cache := (Session.withAlice.cache.perform 0
      (.set (CacheKey.partnerSecret "press").text "secret" 60)).2 }

theorem code_allows_own_route_colons :
    filed.IsProper ∧ files.IsProper ∧ filed.code "Desk:*" ≠ files.code "Desk:*" ∧
    (∀ route, route = filed ∨ route = files →
      ((granting acquainted 1 (filed.code "Desk:*")).run (check "Desk:*" clerk route)).1 =
        .finished (if route = filed then .ok () else .error .forbidden) ∧
      ((Partner.granting acquainted "press" (filed.code "Desk:*")).run
          (Partner.partnerAt Session.plain "Desk:*" 60 calling route 0)).1 =
        .finished (if route = filed then .ok "press" else .error .forbidden)) := by
  have hfiled : filed.IsProper := ⟨"/api/", "get", "/files:*", by decide, rfl⟩
  have hfiles : files.IsProper := ⟨"/api", "GET", "/files", by decide, rfl⟩
  have hread : Partner.Credentials.ofHeaders? calling = some press := by decide +kernel
  have hsecret : Partner.secretOf acquainted "press" = some "secret" := by decide +kernel
  have hsigned : Partner.IsSigned Session.plain "secret" press := by
    unfold Partner.IsSigned
    decide +kernel
  have hvouched : Partner.Vouched Session.plain 60 calling 0
      (Partner.granting acquainted "press" (filed.code "Desk:*")) press "secret" :=
    ⟨Partner.ofHeaders?_eq_some_iff.1 hread, Partner.isNear_iff.1 (by decide),
      (Partner.secretOf_granting ..).trans hsecret, hsigned⟩
  have hclerk : (granting acquainted 1 (filed.code "Desk:*")).HoldsOnly
      (grantsKey clerk.account.id) (filed.code "Desk:*") :=
    World.holdsOnly_adding (by decide +kernel)
  have hpress : (Partner.granting acquainted "press" (filed.code "Desk:*")).HoldsOnly
      (CacheKey.partnerGrants press.partner).text (filed.code "Desk:*") :=
    World.holdsOnly_adding (by decide +kernel)
  have hne : ¬(filed.method = files.method ∧ filed.path = files.path) := by decide +kernel
  obtain ⟨-, -, -, hcheck, -, hrule, -⟩ :=
    @code_allows_own_route "Desk:*" _ _ hfiled hfiled
  obtain ⟨hcode, -, -, hcheck', -, hrule', -⟩ :=
    @code_allows_own_route "Desk:*" _ _ hfiled hfiles
  refine ⟨hfiled, hfiles, hcode.not.2 hne, ?_⟩
  rintro route (rfl | rfl)
  · rw [hcheck _ clerk rfl hclerk rfl, hrule _ _ _ _ _ press _ hvouched hpress rfl,
      if_pos ⟨rfl, rfl⟩, if_pos rfl, if_pos ⟨rfl, rfl⟩, if_pos rfl]
    exact ⟨rfl, rfl⟩
  · rw [hcheck' _ clerk rfl hclerk rfl, hrule' _ _ _ _ _ press _ hvouched hpress rfl,
      if_neg hne, if_neg hne, if_neg (by decide +kernel), if_neg (by decide +kernel)]
    exact ⟨rfl, rfl⟩

end Grant
end AccountAccess
