import AccountAccess.Proofs.Grant.Rebuild
import AccountAccess.Proofs.Http.Guards
import AccountAccess.Proofs.Session.Failures
import AccountAccess.Proofs.Session.PasswordChange

/-!
# What is done for a caller

A guard finds out who is calling, and then the call is carried out.  `Endpoint.Does` says for each
interface what that comes to, in any surroundings and whichever calls fail: what is answered, and
which entries of the cache and which rows of the store are touched.  It is stated of the
surroundings before and after and does not mention how an interface is carried out.

* Signing out is done for the session of the caller.  `EndsSession` removes the token and empties
  the slot if the token stands there; no other key is touched.
* A new password is stored in the row of the caller's account (`ChangesPassword`), if the old one
  is that of the row, and no entry is touched.
* The details of the caller are those that the guard found, and nothing is asked or changed.
* The details and the codes of an account are those of the row of the id in the path
  (`AboutRow`, `ShowsCodes`), and nothing is changed.  A refresh replaces the granted codes of
  this account (`ReplacesCodes`); of the caller nothing is touched, unless it is the same account.
* A partner is told its name.
* Whoever signs in, or sets a new password with a code, is identified by a text in the body.
  `OnlyFor` says that all that is touched belongs to this account.

A call that could not be carried out says so, and each failure is traced to a kind of calls that
are made to fail: an interface that always refused, or did nothing and said otherwise, would do
none of this.

## Main results

* `endsSession_run`, `changesPassword_run`, `showsCodes_run`, `replacesCodes_run`: what is done for
  a caller, one procedure after the other.
* `onlyFor_loginWithPassword`, `onlyFor_request`: what is done for whom a text identifies.
* `Endpoint.does_handle`: whomever the guard of an interface lets pass, what is carried out is what
  the interface is there for.
* `Endpoint.Does.spares`: an interface that only reads spares cache and store.
-/

namespace AccountAccess

namespace Http

open Session Grant OneTimeCode MemoryStore

/-- The answer when something fails inside the service, whatever it is. -/
def internalAnswer : Response :=
  .ofEnvelope 500 (.failure 500 "网络繁忙，请稍后再试")

/-! ## Calls that are about something the request names -/

/-- What becomes of a call for which something has to be read in the request: it is refused where
this cannot be read, before anything is asked. -/
def Given {α : Type} (found : Except Nat α) (before : World)
    (next : α → Outcome Response × World → Prop) (served : Outcome Response × World) : Prop :=
  match found with
  | .error status => served = (.finished (.plain status), before)
  | .ok value => next value served

/-- What becomes of a call that is about the row of an id: the row cannot be looked up, or there is
none, or the call goes on with it. -/
inductive AboutRow (id : Int64) (before : World)
    (next : Account → World → Outcome Response × World → Prop) :
    Outcome Response × World → Prop where
  | failed {after : World} (hfails : before.fails .storeAccount = true)
      (hasked : World.Asked before after) :
      AboutRow id before next (.finished internalAnswer, after)
  | unknown {after : World} (hrow : before.store.account? id = none)
      (hasked : World.Asked before after) :
      AboutRow id before next (.finished (.failure 1004 "账户不存在"), after)
  | found {row : Account} {looked : World} {served : Outcome Response × World}
      (hrow : before.store.account? id = some row) (hasked : World.Asked before looked)
      (hnext : next row looked served) :
      AboutRow id before next served

/-! ## What is done for the caller -/

/-- **The session of an identity is ended.** -/
inductive EndsSession (identity : Identity) (before : World) : Outcome Response × World → Prop where
  | ended {after : World}
      (hanswers : before.answersCache .cacheGet = true ∧ before.answersCache .cacheRemove = true)
      (hentry : ∀ key, after.entry key =
        if key = tokenKey identity.token ∨ key = slotKey identity.owner ∧
            before.reads (slotKey identity.owner) = some identity.token
        then none else before.entry key)
      (hstore : after.store = before.store) :
      EndsSession identity before (.finished (.success noData), after)
  | failed {after : World}
      (hfails : before.answersCache .cacheGet = false ∨ before.answersCache .cacheRemove = false)
      (hentry : after.entry = before.entry) (hstore : after.store = before.store) :
      EndsSession identity before (.finished internalAnswer, after)

/-- **The password of an identity's account is replaced**, if the old one is that of the row. -/
inductive ChangesPassword (primitives : Primitives) (identity : Identity) (old new : String)
    (before : World) : Outcome Response × World → Prop where
  | weak (hweak : Password.isStrong new = false) :
      ChangesPassword primitives identity old new before
        (.finished (.failure 1000 LoginFailure.weakPassword.message), before)
  | unknown {after : World} (hstrong : Password.isStrong new = true)
      (hrow : before.store.account? identity.account.id = none)
      (hasked : World.Asked before after) :
      ChangesPassword primitives identity old new before
        (.finished (.failure 1002 LoginFailure.notRegistered.message), after)
  | wrong {row : Account} {after : World} (hstrong : Password.isStrong new = true)
      (hrow : before.store.account? identity.account.id = some row)
      (hchecked : primitives.checkPassword old row.passwordHash = .ok false)
      (hasked : World.Asked before after) :
      ChangesPassword primitives identity old new before
        (.finished (.failure 1002 LoginFailure.wrongOldPassword.message), after)
  | failed {after : World} (hstrong : Password.isStrong new = true)
      (hfails : before.fails .storeAccount = true ∨ before.fails .storeSetPassword = true ∨
        ∃ row fault, before.store.account? identity.account.id = some row ∧
          primitives.checkPassword old row.passwordHash = .error fault)
      (hentry : after.entry = before.entry)
      (hstore : after.store = { before.store with accountReads := after.store.accountReads }) :
      ChangesPassword primitives identity old new before (.finished internalAnswer, after)
  | changed {row : Account} {after : World} (hstrong : Password.isStrong new = true)
      (hrow : before.store.account? identity.account.id = some row)
      (hown : before.store.Filed → row.id = identity.account.id)
      (hchecked : primitives.checkPassword old row.passwordHash = .ok true)
      (hentry : after.entry = before.entry)
      (hstore : after.store = { before.store.modifyAccount row.id ({ · with
          passwordHash := primitives.hashPassword (before.supply 0) new }) with
        accountReads := after.store.accountReads }) :
      ChangesPassword primitives identity old new before (.finished (.success noData), after)

/-- The codes are shown that the row of an account has by its role. -/
inductive ShowsCodes (id : Int64) (row : Account) (before : World) :
    Outcome Response × World → Prop where
  | shown {after : World} (hspares : World.Spares before after) :
      ShowsCodes id row before
        (.finished (.success (codesDocument id (derivedCodes before.store row))), after)
  | failed {after : World} (hspares : World.Spares before after)
      (hfails : before.fails .storeResourcesOf = true ∨ before.fails .storeCodesOf = true) :
      ShowsCodes id row before (.finished internalAnswer, after)

/-- The granted codes of an account are replaced by those that its row has by its role. -/
inductive ReplacesCodes (id : Int64) (row : Account) (before : World) :
    Outcome Response × World → Prop where
  | replaced {after : World} (hown : before.store.Filed → row.id = id)
      (hentry : after.entry = Function.update before.entry (grantsKey row.id)
        (entryOf (derivedCodes before.store row)))
      (hstore : after.store = before.store) :
      ReplacesCodes id row before
        (.finished (.success (codesDocument id (derivedCodes before.store row))), after)
  | failed {after : World} (hentry : after.entry = before.entry)
      (hstore : after.store = before.store)
      (hfails : before.fails .storeResourcesOf = true ∨ before.fails .storeCodesOf = true ∨
        before.answersCache .cacheWrite = false) :
      ReplacesCodes id row before (.finished internalAnswer, after)

/-! ## What is done for whom a text identifies -/

/-- **All that has been touched belongs to the account that a text identifies**: its codes, its
slots, its granted codes and its row, and tokens that are removed or stand for it. -/
inductive OnlyFor (text : String) (before after : World) : Prop where
  | nobody (hentry : after.entry = before.entry) (hstore : after.store = before.store)
  | account {row : Account}
      (hfound : (Identifier.read? text).bind before.store.accountOf? = some row)
      (hentry : ∀ key, (∀ token, key ≠ tokenKey token) →
        (∀ scene, key ≠ slotKey ⟨row.id, scene⟩) → key ≠ grantsKey row.id →
        (∀ purpose, key ≠ codeKey purpose (Text.decimal row.id)) →
        after.entry key = before.entry key)
      (htoken : ∀ token, after.entry (tokenKey token) = before.entry (tokenKey token) ∨
        after.entry (tokenKey token) = none ∨ ∃ scene deadline, after.entry (tokenKey token) =
          some (.textUntil (SessionOwner.render ⟨row.id, scene⟩) deadline))
      (hrow : ∀ id : Int64, id ≠ row.id →
        after.store.accounts[id]? = before.store.accounts[id]?)

/-- A call of the sessions is carried out for whom a text identifies. -/
structure CarriesOut {α : Type} (text : String) (procedure : Procedure (Except LoginFailure α))
    (answer : Except LoginFailure α → Response) (before : World)
    (served : Outcome Response × World) : Prop where
  run : served = before.run (procedure >>= fun result => .done (answer result))
  own : OnlyFor text before served.2

/-- **What an interface does for its caller.** -/
def Endpoint.Does (service : Service) (request : Request) (pieces : List String)
    (before : World) : Endpoint → Caller → Outcome Response × World → Prop
  | .loginWithPassword, _ =>
    Given (request.readBody (LoginRequest.reader "password")) before fun login =>
      CarriesOut login.identifier (Session.loginWithPassword service.primitives
        service.settings.tokenTtl login.identifier login.secret login.scene) openedResponse before
  | .loginWithCode, _ =>
    Given (request.readBody (LoginRequest.reader "code")) before fun login =>
      CarriesOut login.identifier (Session.loginWithCode service.settings.tokenTtl login.identifier
        login.secret login.scene) openedResponse before
  | .resetPassword, _ =>
    Given (request.readBody ResetRequest.reader) before fun reset =>
      CarriesOut reset.identifier (Session.resetPassword service.primitives reset.identifier
        reset.code reset.password) unitResponse before
  | .logout, .account identity => EndsSession identity before
  | .myself, .account identity => fun served =>
    served = (.finished (.success (identity.account.detailDocument before.wall)), before)
  | .changePassword, .account identity =>
    Given (request.readBody ChangeRequest.reader) before fun change =>
      ChangesPassword service.primitives identity change.old change.new before
  | .account, .account _ =>
    Given (pathId pieces) before fun id => AboutRow id before fun row looked served =>
      served = (.finished (.success (row.detailDocument before.wall)), looked)
  | .accountCodes, .account _ =>
    Given (pathId pieces) before fun id => AboutRow id before fun row => ShowsCodes id row
  | .refreshCodes, .account _ =>
    Given (pathId pieces) before fun id => AboutRow id before fun row => ReplacesCodes id row
  | .ping, .partner name => fun served =>
    served = (.finished (.success (.object [("api_key", .text name), ("scene", .text "ApiCall")])),
      before)
  | _, _ => fun _ => False

/-! ## That it is done -/

section Done

variable {before : World}

theorem given_withBody {α : Type} {request : Request} {read : Json.Reader α}
    {next : α → Procedure Response} {becomes : α → Outcome Response × World → Prop}
    (h : ∀ value, becomes value (before.run (next value))) :
    Given (request.readBody read) before becomes (before.run (withBody request read next)) := by
  unfold Given withBody
  cases request.readBody read with
  | error status => rfl
  | ok value => exact h value

theorem given_withPathId {pieces : List String} {next : Int64 → Procedure Response}
    {becomes : Int64 → Outcome Response × World → Prop}
    (h : ∀ id, becomes id (before.run (next id))) :
    Given (pathId pieces) before becomes (before.run (withPathId pieces next)) := by
  unfold Given withPathId
  cases pathId pieces with
  | error status => rfl
  | ok id => exact h id

theorem aboutRow_withAccount {id : Int64} {next : Account → Procedure Response}
    {becomes : Account → World → Outcome Response × World → Prop}
    (h : ∀ row looked, before.store.account? id = some row → World.Asked before looked →
      becomes row looked (looked.run (next row))) :
    AboutRow id before becomes (before.run (withAccount id next)) := by
  obtain ⟨result, looked, hrun, hasked, hfound⟩ := before.run_account_cases id
  rw [withAccount, World.run_bind hrun]
  rcases hfound with ⟨hfails, e, rfl⟩ | ⟨-, rfl⟩
  · exact .failed hfails hasked
  · cases hrow : before.store.account? id with
    | none => exact .unknown hrow hasked
    | some row => exact .found hrow hasked (h row looked hrow hasked)

/-- **Signing out ends the session of the caller.** -/
theorem endsSession_run (identity : Identity) (before : World) :
    EndsSession identity before
      (before.run do return unitResponse (← Session.logout identity)) := by
  obtain ⟨result, after, hrun, -, hstore, hends⟩ :=
    run_revoke_exactly before identity.owner identity.token
  rw [Session.logout, Dialogue.bind_assoc, World.run_bind hrun]
  rcases hends with ⟨hfails, ⟨e, rfl⟩, hentry⟩ | ⟨hget, hremove, rfl, hentry⟩
  · exact .failed hfails hentry hstore
  · exact .ended ⟨hget, hremove⟩ hentry hstore

/-- **Changing the password replaces that of the caller's account.** -/
theorem changesPassword_run (primitives : Primitives) (identity : Identity) (old new : String)
    (before : World) :
    ChangesPassword primitives identity old new before (before.run do
      return unitResponse (← Session.changePassword primitives identity old new)) := by
  rw [Session.changePassword]
  cases hstrong : Password.isStrong new with
  | false =>
    rw [if_pos (by simp)]
    exact .weak hstrong
  | true =>
    obtain ⟨result, asked, hrun, hasked, hfound⟩ :=
      before.run_account_cases identity.account.id
    rw [if_neg (by simp), Dialogue.bind_assoc, World.run_bind hrun]
    rcases hfound with ⟨hfails, e, rfl⟩ | ⟨-, rfl⟩
    · exact .failed hstrong (Or.inl hfails) hasked.entry hasked.store
    · rcases hrow : before.store.account? identity.account.id with _ | row
      · exact .unknown hstrong hrow hasked
      · dsimp only
        rcases hchecked : primitives.checkPassword old row.passwordHash with fault | _ | _
        · exact .failed hstrong (Or.inr (Or.inr ⟨row, fault, hrow, hchecked⟩)) hasked.entry
            hasked.store
        · exact .wrong hstrong hrow hchecked hasked
        · obtain ⟨result, after, hsave, hentry, hsaved⟩ :=
            PasswordCall.run_savePassword primitives asked row.id new
          rw [World.run_bind hsave]
          rcases hsaved with ⟨hfails, e, rfl, hstore⟩ | ⟨rfl, hstore⟩
          · refine .failed hstrong (Or.inr (Or.inl ?_)) (hentry.trans hasked.entry) ?_
            · -- Asking for the row uses up failures of its own kind only, so the writing was made
              -- to fail from the start.
              have hfaults := hasked.faults .storeSetPassword (by rintro ⟨⟩)
              exact (World.fails_congr hfaults).symm.trans hfails
            · rw [hstore]
              exact hasked.store
          · refine .changed hstrong hrow (fun hfiled => hfiled.id_of_account? hrow) hchecked
              (hentry.trans hasked.entry) ?_
            rw [hstore, hasked.supply, hasked.store]
            rfl

/-- **The codes of a row are shown** unless the store cannot be asked for them. -/
theorem showsCodes_run (id : Int64) (row : Account) (before : World) :
    ShowsCodes id row before (before.run do return codesResponse id (← derive row)) := by
  obtain ⟨result, after, hrun, hcache, hclock, hstore, -, hderived⟩ := run_derive_cases before row
  have hspares : World.Spares before after := ⟨hclock, hcache, by rw [hstore]⟩
  rw [World.run_bind hrun]
  rcases hderived with rfl | ⟨hfails, e, rfl⟩
  · exact .shown hspares
  · exact .failed hspares hfails

/-- **A refresh replaces the granted codes of the row.** -/
theorem replacesCodes_run {id : Int64} {row : Account}
    (hrow : before.store.account? id = some row) :
    ReplacesCodes id row before (before.run do return codesResponse id (← refresh row)) := by
  obtain ⟨result, after, hrun, hends⟩ := run_refresh_cases before row
  have hunmoved : Unmoved before after := by
    have hquiet := unmoved_run (every_refresh row) before
    rwa [hrun] at hquiet
  rw [World.run_bind hrun]
  cases hends with
  | failed hcache hfails =>
    refine .failed ?_ hunmoved.store hfails
    funext key
    rw [World.entry, World.entry, hcache]
  | written hentry =>
    exact .replaced (fun hfiled => hfiled.id_of_account? hrow) hentry hunmoved.store

/-! ## Whom a text identifies -/

theorem OnlyFor.of_actedFor {text : String} {looked after : World} {row : Account}
    (hentry : looked.entry = before.entry) (hstore : looked.store = before.store)
    (hfound : (Identifier.read? text).bind before.store.accountOf? = some row)
    (h : ActedFor row.id looked after) : OnlyFor text before after := by
  refine .account hfound (fun key htoken hslot hgrants _ => ?_) (fun token => ?_) fun id hid => ?_
  · rw [h.entry key htoken hslot hgrants, hentry]
  · rw [← hentry]
    exact h.token_entry token
  · rw [h.row id hid, hstore]

theorem eq_of_letIn {primitives : Primitives} {password : String} {row account : Account}
    (h : letIn primitives password (some row) = .ok account) : row = account := by
  simp only [letIn] at h
  split at h
  · exact absurd h (by simp)
  · exact absurd h (by simp)
  · split at h
    · exact Except.ok.inj h
    · exact absurd h (by simp)

/-- Signing in with a password touches only what belongs to the account that is found. -/
theorem onlyFor_loginWithPassword (primitives : Primitives) (ttl : UInt64)
    (text password : String) (scene : Scene) (before : World) :
    OnlyFor text before
      (before.run (Session.loginWithPassword primitives ttl text password scene)).2 := by
  obtain ⟨result, looked, hrun, hspares, hunmoved, hfound⟩ := run_accountOf_cases before text
  rw [loginWithPassword_eq, World.run_bind hrun]
  rcases hfound with rfl | ⟨-, e, rfl⟩
  · rcases hrow : (Identifier.read? text).bind before.store.accountOf? with _ | row
    · exact .nobody hspares.entry hunmoved.store
    · dsimp only
      rcases hletIn : letIn primitives password (some row) with failure | account
      · exact .nobody hspares.entry hunmoved.store
      · obtain rfl : row = account := eq_of_letIn hletIn
        exact .of_actedFor hspares.entry hunmoved.store hrow
          (ActedFor.run (every_openFor ttl row scene) looked).1
  · exact .nobody hspares.entry hunmoved.store

/-- A request that presents a code touches only what belongs to the account that is found. -/
theorem onlyFor_request (primitives : Primitives) (request : OneTimeCode.Request)
    (before : World) :
    OnlyFor request.identifier before (before.run (request.procedure primitives)).2 := by
  have hends := request.run_cases primitives before
  generalize (before.run (request.procedure primitives)).1 = outcome at hends
  generalize (before.run (request.procedure primitives)).2 = after at hends
  cases hends with
  | refused _ hentry hstore => exact .nobody hentry hstore
  | @honoured account spent _ _ _ _ hclock hstore hentry hacted _ _ hfound =>
    obtain ⟨row, hrow, rfl⟩ := hfound
    refine .account hrow (fun key htoken hslot hgrants hcode => ?_) (fun token => ?_)
      fun id hid => ?_
    · rw [hacted.entry key htoken hslot hgrants, hentry, Function.update_of_ne (hcode _)]
    · have hspent : spent.entry (tokenKey token) = before.entry (tokenKey token) := by
        rw [hentry, Function.update_of_ne (codeKey_ne_tokenKey _ _ token).symm]
      rw [← hspent]
      exact hacted.token_entry token
    · rw [hacted.row id hid, hstore]

theorem run_snd_map {α β : Type} (procedure : Procedure α) (f : α → β) (before : World) :
    (before.run (procedure >>= fun result => .done (f result))).2 = (before.run procedure).2 := by
  rw [World.run, World.run, Dialogue.run_bind]
  rcases Dialogue.run World.answer procedure before with ⟨result | _, after⟩
  · rfl
  · rfl

theorem CarriesOut.of_onlyFor {α : Type} {text : String}
    {procedure : Procedure (Except LoginFailure α)} {answer : Except LoginFailure α → Response}
    (h : OnlyFor text before (before.run procedure).2) :
    CarriesOut text procedure answer before
      (before.run (procedure >>= fun result => .done (answer result))) :=
  ⟨rfl, by rwa [run_snd_map]⟩

end Done

/-- **Whomever the guard of an interface lets pass, the interface does what it is there for**, in
any surroundings and whichever calls fail. -/
theorem Endpoint.does_handle {endpoint : Endpoint} {caller : Caller} {service : Service}
    {headers : Headers} {route : Route} {found : World}
    (h : endpoint.guard.Passes service headers route found caller) (request : Request)
    (pieces : List String) (before : World) :
    endpoint.Does service request pieces before caller
      (before.run (endpoint.handle service request pieces caller)) := by
  cases endpoint with
  | loginWithPassword =>
    exact given_withBody fun login => .of_onlyFor (onlyFor_loginWithPassword ..)
  | loginWithCode =>
    -- A login and a reset are one kind of request, which answers with a session or with nothing;
    -- this makes no difference to what is touched.
    refine given_withBody fun login => .of_onlyFor ?_
    rw [← run_snd_map _ (Except.map some)]
    exact onlyFor_request service.primitives
      (.login login.identifier login.secret login.scene service.settings.tokenTtl) before
  | resetPassword =>
    refine given_withBody fun reset => .of_onlyFor ?_
    rw [← run_snd_map _ (Except.map fun _ => (none : Option Opened))]
    exact onlyFor_request service.primitives
      (.reset reset.identifier reset.code reset.password) before
  | logout =>
    cases h with
    | session => exact endsSession_run _ before
  | myself =>
    cases h with
    | session => rfl
  | changePassword =>
    cases h with
    | session => exact given_withBody fun change => changesPassword_run ..
  | account =>
    cases h with
    | granted =>
      refine given_withPathId fun id => aboutRow_withAccount fun row looked _ hasked => ?_
      rw [← hasked.wall]
      rfl
  | accountCodes =>
    cases h with
    | staff =>
      exact given_withPathId fun id => aboutRow_withAccount fun row looked _ _ =>
        showsCodes_run id row looked
  | refreshCodes =>
    cases h with
    | superAdmin =>
      refine given_withPathId fun id => aboutRow_withAccount fun row looked hrow hasked => ?_
      refine replacesCodes_run ?_
      rw [hasked.store]
      exact hrow
  | ping =>
    cases h with
    | partner => rfl

/-! ## Interfaces that only read -/

section Reading

variable {service : Service} {request : Request} {pieces : List String} {before : World}
  {endpoint : Endpoint} {caller : Caller} {served : Outcome Response × World}

theorem Given.spares {α : Type} {found : Except Nat α}
    {next : α → Outcome Response × World → Prop} (h : Given found before next served)
    (hnext : ∀ value, next value served → World.Spares before served.2) :
    World.Spares before served.2 := by
  cases found with
  | error status =>
    obtain rfl : served = _ := h
    exact .refl before
  | ok value => exact hnext value h

theorem AboutRow.spares {id : Int64} {next : Account → World → Outcome Response × World → Prop}
    (h : AboutRow id before next served)
    (hnext : ∀ row looked, next row looked served → World.Spares looked served.2) :
    World.Spares before served.2 := by
  cases h with
  | failed _ hasked => exact hasked.toSpares
  | unknown _ hasked => exact hasked.toSpares
  | found _ hasked hrow => exact hasked.toSpares.trans (hnext _ _ hrow)

/-- **What an interface does that only reads** spares cache and store. -/
theorem Endpoint.Does.spares (h : endpoint.Does service request pieces before caller served)
    (hreading : endpoint.isReading = true) : World.Spares before served.2 := by
  cases endpoint with
  | loginWithPassword | loginWithCode | resetPassword | logout | changePassword | refreshCodes =>
    exact absurd hreading (by decide)
  | myself =>
    cases caller with
    | account identity =>
      obtain rfl : served = _ := h
      exact .refl before
    | _ => exact False.elim h
  | account =>
    cases caller with
    | account identity =>
      refine Given.spares h fun id hrow => hrow.spares fun row looked hshown => ?_
      obtain rfl : served = _ := hshown
      exact .refl looked
    | _ => exact False.elim h
  | accountCodes =>
    cases caller with
    | account identity =>
      refine Given.spares h fun id hrow => hrow.spares fun row looked hshown => ?_
      cases hshown with
      | shown hspares => exact hspares
      | failed hspares _ => exact hspares
    | _ => exact False.elim h
  | ping =>
    cases caller with
    | partner name =>
      obtain rfl : served = _ := h
      exact .refl before
    | _ => exact False.elim h

end Reading

end Http
end AccountAccess
