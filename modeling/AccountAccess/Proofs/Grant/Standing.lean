import AccountAccess.Proofs.Grant.Rebuild
import AccountAccess.Proofs.Http.Guards
import AccountAccess.Proofs.Service.Moments

/-!
# The written codes follow the roles

In a run accounts are refreshed and sign in, requests are checked, one-time codes are kept, the
store is edited, time passes and calls are made to fail in any way.  An event *rebuilds* an account
if it is a refresh that succeeds, or a login that comes as far as a refresh that succeeds.

An event that rebuilds an account leaves at its key the codes that are derived from the store of
that moment; any other event leaves the key alone.  So what stands there is always the list of the
last rebuild, and a check right after a rebuild decides by the tables.

A login that fails after its refresh has rebuilt the account all the same.  So whether an event
rebuilds is not read off its result; it is said with the part of the login that comes before the
session is opened.

## Main definitions and results

* `Event`, `Event.Rebuilds`: what happens in a run, and which events rebuild an account.
* `Event.Rebuilds.spec`, `Event.entry_of_ne`: what an event does to the key of an account.
* `LastRebuilt`, `LastRebuilt.entry_eq`: what stands there at any moment is the last list.
* `FollowsRoles`: a list is the one that the tables of a store give, said with the tables.
* `RebuildsAt.check_iff`, `RebuildsAt.again`: a check right after a rebuild, and another rebuild.
* `granted_codes_follow_roles`: all of this for every run that starts without written codes.
-/

namespace AccountAccess
namespace Grant
namespace Standing

open Session

/-! ## Runs -/

/-- What happens in a run. -/
inductive Event where
  | refresh (account : Account)
  | login (attempt : Attempt) (scene : Scene) (ttl : UInt64)
  | check (service : String) (identity : Identity) (route : Route)
  | keep (purpose : CodePurpose) (recipient code : String) (ttl : UInt64)
  /-- The store is edited. -/
  | edit (change : MemoryStore → MemoryStore)
  | elapse (milliseconds : Nat)
  /-- From now on calls fail in another way. -/
  | disturb (faults : CallKind → Option Fault) (isAvailable : Bool)

section Run

variable (primitives : Primitives)

/-- The surroundings after an event. -/
def Event.play (world : World) : Event → World
  | refresh account => (world.run (Grant.refresh account)).2
  | login attempt scene ttl => (world.run (attempt.procedure primitives ttl scene)).2
  | check service identity route => (world.run (Grant.check service identity route)).2
  | keep purpose recipient code ttl => (world.run (OneTimeCode.put purpose recipient code ttl)).2
  | edit change => { world with store := change world.store }
  | elapse milliseconds => world.advance milliseconds
  | disturb faults isAvailable => { world with faults, cache := { world.cache with isAvailable } }

/-- A refresh of an account succeeds with a list of codes. -/
def Refreshes (world : World) (account : Account) (codes : List String) : Prop :=
  (world.run (Grant.refresh account)).1 = .finished (.ok codes)

/-- An event rebuilds an account with a list of codes: it is a refresh that succeeds, or a login
that finds out that the account signs in and then refreshes it with success. -/
inductive Event.Rebuilds (world : World) : Event → Account → List String → Prop where
  | refresh {account : Account} {codes : List String} (h : Refreshes world account codes) :
      Rebuilds world (.refresh account) account codes
  | login {attempt : Attempt} {scene : Scene} {ttl : UInt64} {account : Account} {known : World}
      {codes : List String}
      (hauthenticated : world.run (attempt.authenticate primitives) =
        (.finished (.ok account), known))
      (h : Refreshes known account codes) :
      Rebuilds world (.login attempt scene ttl) account codes

/-- An event of a run that rebuilds an account. -/
def RebuildsAt (start : World) (events : List Event) (n : ℕ) (account : Account)
    (codes : List String) : Prop :=
  ∃ event, events[n]? = some event ∧
    event.Rebuilds primitives (moment (Event.play primitives) start events n) account codes

end Run

/-! ## One event -/

section Step

variable {primitives : Primitives} {world : World} {account : Account} {codes : List String}

/-- The keys of other families than granted codes. -/
def IsOther (key : CacheKey) : Prop := ∀ account, key ≠ .grants account

theorem isOther_of_session {key : CacheKey} (h : key.IsOfSession) : IsOther key := by
  rintro account rfl
  exact h

theorem grants_entry_run {α : Type} {procedure : Procedure α} (h : procedure.Names IsOther)
    (world : World) (id : Int64) :
    (world.run procedure).2.entry (grantsKey id) = world.entry (grantsKey id) :=
  h.entry_run (fun hother => hother id rfl) world

/-- **A refresh that succeeds** writes the derived codes, and nothing else. -/
theorem Refreshes.spec (h : Refreshes world account codes) :
    codes = derivedCodes world.store account ∧
      (world.run (Grant.refresh account)).2.entry =
        Function.update world.entry (grantsKey account.id) (entryOf codes) := by
  obtain ⟨result, after, hrun, hends⟩ := run_refresh_cases world account
  rw [Refreshes, hrun] at h
  obtain rfl := Outcome.finished.inj h
  rw [hrun]
  generalize hresult : (Except.ok codes : Except RefreshError (List String)) = result at hends
  cases hends with
  | failed => exact absurd hresult (by simp)
  | written hentry =>
    obtain rfl := Except.ok.inj hresult
    exact ⟨rfl, hentry⟩

theorem cache_of_not_refreshes (h : ∀ codes, ¬Refreshes world account codes) :
    (world.run (Grant.refresh account)).2.cache = world.cache := by
  obtain ⟨result, after, hrun, hends⟩ := run_refresh_cases world account
  rw [hrun]
  cases hends with
  | failed hcache => exact hcache
  | written hentry => exact absurd (by rw [Refreshes, hrun]) (h _)

theorem run_authenticate_spares {attempt : Attempt} {known : World}
    {outcome : Outcome (Except LoginFailure Account)}
    (h : world.run (attempt.authenticate primitives) = (outcome, known)) :
    (∀ id, known.entry (grantsKey id) = world.entry (grantsKey id)) ∧
      SameRoles world.store known.store := by
  have hnames : (attempt.authenticate primitives).Names IsOther :=
    attempt.names_authenticate (fun _ _ _ hkey => CacheKey.noConfusion hkey) primitives
  have hroles := sameRoles_run (attempt.authenticate primitives) world
  rw [h] at hroles
  refine ⟨fun id => ?_, hroles⟩
  have hentry := grants_entry_run hnames world id
  rwa [h] at hentry

/-- **Of granted codes a login is seen as its refresh.** -/
theorem entry_login {attempt : Attempt} {known : World}
    (h : world.run (attempt.authenticate primitives) = (.finished (.ok account), known))
    (scene : Scene) (ttl : UInt64) (id : Int64) :
    (world.run (attempt.procedure primitives ttl scene)).2.entry (grantsKey id) =
      (known.run (Grant.refresh account)).2.entry (grantsKey id) := by
  obtain ⟨refreshed, after, hrefresh, -⟩ := run_refresh_cases known account
  rw [attempt.procedure_eq, World.run_bind h, hrefresh]
  simp only [World.run_bind hrefresh]
  exact grants_entry_run
    (names_openRefreshed (fun _ => isOther_of_session) ttl account scene refreshed) after id

/-- **An event that rebuilds an account** leaves at its key the codes that are derived from the
store of that moment, and nothing else at any account's key. -/
theorem Event.Rebuilds.spec {event : Event} (h : event.Rebuilds primitives world account codes) :
    codes = derivedCodes world.store account ∧ ∀ id,
      (event.play primitives world).entry (grantsKey id) =
        if id = account.id then entryOf codes else world.entry (grantsKey id) := by
  have hupdate : ∀ (entries : String → Option CacheEntry) id,
      Function.update entries (grantsKey account.id) (entryOf codes) (grantsKey id) =
        if id = account.id then entryOf codes else entries (grantsKey id) := by
    intro entries id
    by_cases hid : id = account.id
    · rw [hid, Function.update_self, if_pos rfl]
    · rw [if_neg hid, Function.update_of_ne fun hkey => hid (CacheKey.grants.inj
        (CacheKey.text_injective hkey))]
  cases h with
  | refresh h =>
    obtain ⟨hcodes, hentry⟩ := h.spec
    exact ⟨hcodes, fun id => by rw [Event.play, hentry, hupdate]⟩
  | login hauthenticated h =>
    -- The refresh derives from the tables that it finds.  They give the same roles as those of the
    -- start, since what comes before it writes to no table.
    obtain ⟨hcodes, hentry⟩ := h.spec
    obtain ⟨hknown, hroles⟩ := run_authenticate_spares hauthenticated
    refine ⟨hcodes.trans hroles.derivedCodes_eq, fun id => ?_⟩
    rw [Event.play, entry_login hauthenticated, hentry, hupdate, hknown]

/-- An event that rebuilds nothing leaves all granted codes alone. -/
theorem Event.entry_of_not_rebuilds {event : Event}
    (h : ∀ account codes, ¬event.Rebuilds primitives world account codes) (id : Int64) :
    (event.play primitives world).entry (grantsKey id) = world.entry (grantsKey id) := by
  cases event with
  | refresh account =>
    rw [Event.play, World.entry,
      cache_of_not_refreshes fun codes hcodes => h account codes (.refresh hcodes)]
    rfl
  | login attempt scene ttl =>
    rcases hrun : world.run (attempt.authenticate primitives) with ⟨⟨failure | account⟩ | _, known⟩
    · obtain ⟨hknown, -⟩ := run_authenticate_spares hrun
      rw [Event.play, attempt.procedure_eq, World.run_bind hrun]
      exact hknown id
    · obtain ⟨hknown, -⟩ := run_authenticate_spares hrun
      rw [Event.play, entry_login hrun, World.entry,
        cache_of_not_refreshes fun codes hcodes => h account codes (.login hrun hcodes)]
      exact hknown id
    · obtain ⟨hknown, -⟩ := run_authenticate_spares hrun
      rw [Event.play, attempt.procedure_eq, World.run_bind_of_aborted hrun]
      exact hknown id
  | check service identity route =>
    obtain ⟨result, after, hrun, hspares, -⟩ := run_check_cases world service identity route
    rw [Event.play, hrun, hspares.entry]
  | keep purpose recipient code ttl =>
    exact grants_entry_run (Procedure.names_cache (.code purpose recipient) rfl
      fun _ hkey => CacheKey.noConfusion hkey) world id
  | edit change => rfl
  | elapse milliseconds => rfl
  | disturb faults isAvailable => rfl

/-- **An event that does not rebuild an account** leaves the codes of the account alone. -/
theorem Event.entry_of_ne {event : Event} {id : Int64}
    (h : ∀ account codes, event.Rebuilds primitives world account codes → account.id ≠ id) :
    (event.play primitives world).entry (grantsKey id) = world.entry (grantsKey id) := by
  by_cases hany : ∃ account codes, event.Rebuilds primitives world account codes
  · obtain ⟨account, codes, hrebuilds⟩ := hany
    rw [hrebuilds.spec.2, if_neg (h account codes hrebuilds).symm]
  · exact entry_of_not_rebuilds (fun account codes hrebuilds =>
      hany ⟨account, codes, hrebuilds⟩) id

end Step

/-! ## The whole run -/

section Run

variable {primitives : Primitives} {start : World} {events : List Event} {n : ℕ}
  {account : Account} {codes : List String} {id : Int64}

/-- **A rebuild writes**: its list stands at the key of its account. -/
theorem RebuildsAt.entry (h : RebuildsAt primitives start events n account codes) :
    (moment (Event.play primitives) start events (n + 1)).entry (grantsKey account.id) =
      entryOf codes := by
  obtain ⟨event, hevent, hrebuilds⟩ := h
  rw [moment_succ _ _ hevent, hrebuilds.spec.2, if_pos rfl]

/-- **What is not rebuilt stays.** -/
theorem entry_of_le {m : ℕ} (hmn : m ≤ n) {id : Int64}
    (h : ∀ j, m ≤ j → j < n → ∀ account codes,
      RebuildsAt primitives start events j account codes → account.id ≠ id) :
    (moment (Event.play primitives) start events n).entry (grantsKey id) =
      (moment (Event.play primitives) start events m).entry (grantsKey id) :=
  moment_keeps (fun world => world.entry (grantsKey id) = _) hmn rfl
    fun j event hmj hjn hevent hsame => (Event.entry_of_ne fun account codes hrebuilds =>
      h j hmj hjn account codes ⟨event, hevent, hrebuilds⟩).trans hsame

theorem RebuildsAt.codes_eq (h : RebuildsAt primitives start events n account codes) :
    codes = derivedCodes (moment (Event.play primitives) start events n).store account := by
  obtain ⟨event, -, hrebuilds⟩ := h
  exact hrebuilds.spec.1

theorem RebuildsAt.sameRoles (h : RebuildsAt primitives start events n account codes) :
    SameRoles (moment (Event.play primitives) start events n).store
      (moment (Event.play primitives) start events (n + 1)).store := by
  obtain ⟨event, hevent, hrebuilds⟩ := h
  rw [moment_succ _ _ hevent]
  cases hrebuilds with
  | refresh => exact sameRoles_run _ _
  | login => exact sameRoles_run _ _

/-- **A check right after a rebuild** decides by the tables. -/
theorem RebuildsAt.check_iff (h : RebuildsAt primitives start events n account codes)
    {identity : Identity} (hid : identity.account.id = account.id)
    (hadmin : identity.isSuperAdmin = false) (service : String) (route : Route) :
    ((moment (Event.play primitives) start events (n + 1)).run
          (Grant.check service identity route)).1 = .finished (.ok ()) ↔
      (moment (Event.play primitives) start events (n + 1)).answersCache .cacheAnyMember = true ∧
        ∃ code ∈ ["*", service ++ ":*", service ++ ":" ++ route.method ++ ":" ++ route.path],
          Derivable (moment (Event.play primitives) start events n).store account code := by
  obtain ⟨result, after, hrun, -, hallows⟩ :=
    run_check_cases (moment (Event.play primitives) start events (n + 1)) service identity route
  have hmem : ∀ code, code ∈ (moment (Event.play primitives) start events (n + 1)).cache.membersAt
      (moment (Event.play primitives) start events (n + 1)).clock (grantsKey identity.account.id) ↔
        Derivable (moment (Event.play primitives) start events n).store account code := by
    intro code
    rw [hid, mem_membersAt_iff h.entry, h.codes_eq, mem_derivedCodes_iff]
  rw [hrun, Outcome.finished.injEq, hallows, candidates, everything, everythingOf, Route.code]
  simp only [hmem, hadmin, Bool.false_eq_true, false_or]

/-- **Rebuilding once more** gives the same list and leaves every entry as it is. -/
theorem RebuildsAt.again (h : RebuildsAt primitives start events n account codes)
    {others : List String}
    (hagain : Refreshes (moment (Event.play primitives) start events (n + 1)) account others) :
    others = codes ∧
      ((moment (Event.play primitives) start events (n + 1)).run (Grant.refresh account)).2.entry =
        (moment (Event.play primitives) start events (n + 1)).entry := by
  obtain ⟨hothers, hentry⟩ := hagain.spec
  obtain rfl : others = codes := by rw [hothers, h.codes_eq, h.sameRoles.derivedCodes_eq]
  rw [hentry, ← h.entry, Function.update_eq_self]
  exact ⟨rfl, rfl⟩

/-! ## The last rebuild -/

/-- The list of the last event before a moment that rebuilt an account, which is empty if no event
did. -/
inductive LastRebuilt (primitives : Primitives) (start : World) (events : List Event) (n : ℕ)
    (id : Int64) : List String → Prop where
  | never (h : ∀ j < n, ∀ account codes,
        RebuildsAt primitives start events j account codes → account.id ≠ id) :
      LastRebuilt primitives start events n id []
  | rebuilt {m : ℕ} {account : Account} {codes : List String} (hm : m < n)
      (h : RebuildsAt primitives start events m account codes) (hid : account.id = id)
      (hlast : ∀ j, m < j → j < n → ∀ other codes,
        RebuildsAt primitives start events j other codes → other.id ≠ id) :
      LastRebuilt primitives start events n id codes

/-- There always is a last rebuild, or none. -/
theorem exists_lastRebuilt (primitives : Primitives) (start : World) (events : List Event) (n : ℕ)
    (id : Int64) : ∃ codes, LastRebuilt primitives start events n id codes := by
  induction n with
  | zero => exact ⟨[], .never fun j hj => absurd hj (Nat.not_lt_zero j)⟩
  | succ n ih =>
    by_cases hnow : ∃ account codes,
        RebuildsAt primitives start events n account codes ∧ account.id = id
    · obtain ⟨account, codes, h, hid⟩ := hnow
      exact ⟨codes, .rebuilt (Nat.lt_succ_self n) h hid fun j hnj hj => by omega⟩
    · have hnot : ∀ account codes, RebuildsAt primitives start events n account codes →
          account.id ≠ id := fun account codes h hid => hnow ⟨account, codes, h, hid⟩
      obtain ⟨codes, hcodes⟩ := ih
      refine ⟨codes, ?_⟩
      cases hcodes with
      | never h =>
        refine .never fun j hj => ?_
        rcases Nat.lt_succ_iff_lt_or_eq.1 hj with hlt | rfl
        · exact h j hlt
        · exact hnot
      | rebuilt hm h hid hlast =>
        refine .rebuilt (Nat.lt_succ_of_lt hm) h hid fun j hmj hj => ?_
        rcases Nat.lt_succ_iff_lt_or_eq.1 hj with hlt | rfl
        · exact hlast j hmj hlt
        · exact hnot

/-- **What stands at the key of an account is the list of the last rebuild.** -/
theorem LastRebuilt.entry_eq (h : LastRebuilt primitives start events n id codes)
    (hempty : ∀ id, start.entry (grantsKey id) = none) :
    (moment (Event.play primitives) start events n).entry (grantsKey id) = entryOf codes := by
  cases h with
  | never h =>
    rw [entry_of_le (Nat.zero_le n) fun j _ hj => h j hj]
    exact hempty id
  | rebuilt hm h hid hlast =>
    rw [entry_of_le hm fun j hmj hj => hlast j hmj hj, ← hid]
    exact h.entry

/-- **A list follows the roles of a store** for an account: it is the list of everything, or the
strictly increasing list of the codes that the account's role gives, whichever rows of permissions
there are and in whichever order the tables are gone through. -/
structure FollowsRoles (store : MemoryStore) (account : Account) (codes : List String) : Prop where
  superAdmin : account.isSuperAdmin = true → codes = ["*"]
  increasing : codes.Pairwise (· < ·)
  mem_iff : account.isSuperAdmin = false → ∀ code, code ∈ codes ↔
    ∃ id, store.RoleHas account.roleId account.isStaff id ∧ code ∈ store.resourceCodes.getD id ∅
  sameRoles : ∀ other, SameRoles store other → derivedCodes other account = codes
  lists : ∀ {σ : Type} {handler : Handler serviceInterface σ}, Lists handler store → ∀ state,
    ((derive account).run handler state).1 = .finished (.ok codes)

theorem followsRoles_derivedCodes (store : MemoryStore) (account : Account) :
    FollowsRoles store account (derivedCodes store account) where
  superAdmin hadmin := if_pos hadmin
  increasing := pairwise_derivedCodes store account
  mem_iff hadmin _ := by rw [mem_derivedCodes_iff, derivable_iff hadmin]
  sameRoles _ h := h.derivedCodes_eq
  lists h state := run_derive_of_lists h account state

/-- **The written codes follow the roles**, in every run that starts without written codes and in
which calls may fail in any way.  At every moment the codes of the last rebuild stand at the key of
an account, as a set that does not expire, and nothing stands there if there are none.  A refresh
that fails leaves the cache as it was.  The list of a rebuild follows the roles of its moment; right
after it a check lets an account pass exactly if a code that allows the route is derivable, as long
as the cache answers; and rebuilding once more changes nothing. -/
theorem granted_codes_follow_roles (primitives : Primitives) {start : World}
    (hempty : ∀ id, start.entry (grantsKey id) = none) (events : List Event) (n : ℕ) :
    (∀ id, (∃ codes, LastRebuilt primitives start events n id codes) ∧
      ∀ codes, LastRebuilt primitives start events n id codes →
        (moment (Event.play primitives) start events n).entry
          ("UC:Account:Apis:" ++ Text.decimal id) = entryOf codes) ∧
    (∀ account e after, (moment (Event.play primitives) start events n).run
        (Grant.refresh account) = (.finished (.error e), after) →
      after.cache = (moment (Event.play primitives) start events n).cache) ∧
    ∀ account codes, RebuildsAt primitives start events n account codes →
      FollowsRoles (moment (Event.play primitives) start events n).store account codes ∧
      (∀ identity : Identity, identity.account.id = account.id → identity.isSuperAdmin = false →
        ∀ service route,
          ((moment (Event.play primitives) start events (n + 1)).run
                (Grant.check service identity route)).1 = .finished (.ok ()) ↔
            (moment (Event.play primitives) start events (n + 1)).answersCache .cacheAnyMember =
                true ∧
              ∃ code ∈ ["*", service ++ ":*",
                  service ++ ":" ++ route.method ++ ":" ++ route.path],
                Derivable (moment (Event.play primitives) start events n).store account code) ∧
      ∀ others, Refreshes (moment (Event.play primitives) start events (n + 1)) account others →
        others = codes ∧
          ((moment (Event.play primitives) start events (n + 1)).run
              (Grant.refresh account)).2.entry =
            (moment (Event.play primitives) start events (n + 1)).entry := by
  refine ⟨fun id => ⟨exists_lastRebuilt primitives start events n id,
    fun codes h => h.entry_eq hempty⟩, ?_, ?_⟩
  · intro account e after hrun
    have hfailed : ∀ codes,
        ¬Refreshes (moment (Event.play primitives) start events n) account codes := by
      intro codes hcodes
      rw [Refreshes, hrun] at hcodes
      exact absurd hcodes (by simp)
    have hcache := cache_of_not_refreshes hfailed
    rwa [hrun] at hcache
  · intro account codes h
    refine ⟨?_, fun identity hid hadmin service route => h.check_iff hid hadmin service route,
      fun others hagain => h.again hagain⟩
    rw [h.codes_eq]
    exact followsRoles_derivedCodes _ account

end Run

/-- Surroundings in which an account whose role gives a code can sign in. -/
def withReader : World :=
  { withAlice with store := .withReports }

/-- The account signs in, and then the code is taken away from the page that carries it. -/
def revoking : List Event :=
  [.login (.withPassword "alice" "Abcdef12") .web 60,
    .edit (·.revokeCode 101 "Desk:GET:/reports")]

/-- The account as it is known to a session. -/
def reader : Identity :=
  .ofAccount MemoryStore.alice .web "token"

/-- Right after the login the account may read the reports, and it may neither write them nor read
them in another service.  The code still stands at the end, since it was derived before it was taken
away. -/
theorem granted_codes_follow_roles_revoking :
    (∀ id, withReader.entry (grantsKey id) = none) ∧
      RebuildsAt plain withReader revoking 0 MemoryStore.alice ["Desk:GET:/reports"] ∧
      ((moment (Event.play plain) withReader revoking 1).run
        (Grant.check "Desk" reader ⟨"GET", "/reports"⟩)).1 = .finished (.ok ()) ∧
      ((moment (Event.play plain) withReader revoking 1).run
        (Grant.check "Desk" reader ⟨"POST", "/reports"⟩)).1 = .finished (.error .forbidden) ∧
      ((moment (Event.play plain) withReader revoking 1).run
        (Grant.check "Till" reader ⟨"GET", "/reports"⟩)).1 = .finished (.error .forbidden) ∧
      LastRebuilt plain withReader revoking 2 1 ["Desk:GET:/reports"] ∧
      (moment (Event.play plain) withReader revoking 2).entry (grantsKey 1) =
        entryOf ["Desk:GET:/reports"] ∧
      ¬Derivable (moment (Event.play plain) withReader revoking 2).store MemoryStore.alice
        "Desk:GET:/reports" := by
  have hempty : ∀ id, withReader.entry (grantsKey id) = none := fun _ =>
    Std.ExtTreeMap.getElem?_empty
  have hlogin : RebuildsAt plain withReader revoking 0 MemoryStore.alice ["Desk:GET:/reports"] := by
    have hauthenticated : (withReader.run
        ((Attempt.withPassword "alice" "Abcdef12").authenticate plain)).1 =
          .finished (.ok MemoryStore.alice) := by
      decide +kernel
    refine ⟨_, rfl, .login (Prod.ext hauthenticated rfl) ?_⟩
    rw [Refreshes]
    decide +kernel
  have hlast : LastRebuilt plain withReader revoking 2 1 ["Desk:GET:/reports"] := by
    refine .rebuilt (by decide) hlogin rfl fun j hj hlt other codes hother => ?_
    obtain rfl : j = 1 := by omega
    obtain ⟨event, hevent, hrebuilds⟩ := hother
    obtain rfl : Event.edit (·.revokeCode 101 "Desk:GET:/reports") = event :=
      Option.some.inj hevent
    cases hrebuilds
  obtain ⟨-, -, hrebuilt⟩ := granted_codes_follow_roles plain hempty revoking 0
  obtain ⟨-, hcheck, -⟩ := hrebuilt _ _ hlogin
  have hderivable : Derivable withReader.store MemoryStore.alice "Desk:GET:/reports" := by
    rw [← mem_derivedCodes_iff]
    decide +kernel
  refine ⟨hempty, hlogin, ?_, by decide +kernel, by decide +kernel, hlast,
    ((granted_codes_follow_roles plain hempty revoking 2).1 1).2 _ hlast, ?_⟩
  · exact (hcheck reader rfl rfl "Desk" ⟨"GET", "/reports"⟩).2
      ⟨by decide +kernel, "Desk:GET:/reports", by decide, hderivable⟩
  · rw [← mem_derivedCodes_iff]
    decide +kernel

end Standing
end Grant
end AccountAccess
