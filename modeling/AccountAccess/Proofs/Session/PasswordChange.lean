import AccountAccess.Proofs.Code.Request
import AccountAccess.Proofs.Service.Readings
import AccountAccess.Proofs.Session.PasswordLogin

/-!
# Replacing a password

A password is replaced by whoever knows the old one, or by whoever has a code that was sent to the
account.  The two calls find out differently whose password may be replaced, and then save in the
same way.  So a call is told in two parts: `authorise` comes to the row of an account or to a
failure, and has written nothing to the store by then; saving writes the hash of one row or fails.

The old password is compared with the row, of the identity only the id counts.  What an identity
says of its account may be long out of date, and nothing here depends on it.

## What a password is good for

That the new password opens sessions and the old one does not is said with the login itself.
`PassesCheck` speaks of a login in any later surroundings: while look-ups do not fail it goes on to
open a session for the account, it is not refused for the password, and in calm surroundings it
ends with a session.

## Main definitions and results

* `Authorised`, `run_authorise`: what entitles a call, and that nothing else does.
* `run_savePassword`: saving a password, which fails only if the writing is made to fail.
* `Replaces`, `Ends`, `run_procedure`: what a call can come to in any surroundings.
* `Replaces.passwordOf_ne_iff`: the hash of this account changes, and no other.
* `passesCheck_of_admitted`, `Replaces.passesCheck`: with the new password the account can sign in.
* `changes_password_iff`: all of this.
-/

namespace AccountAccess

/-! ## Random bytes are drawn by one call only -/

namespace World

theorem supply_answer (world : World) {call : ServiceCall} (h : call ≠ .random) :
    (World.answer call world).2.supply = world.supply := by
  cases call with
  | cache call =>
    obtain ⟨faults, cache, hworld, -⟩ := answer_cache_world world call
    rw [hworld]
    rfl
  | store call =>
    obtain ⟨faults, store, hworld, -⟩ := answer_store_world world call
    rw [hworld]
    rfl
  | random => exact absurd rfl h
  | _ => rfl

theorem supply_run {α : Type} {procedure : Procedure α} {Q : α → Prop}
    (h : procedure.Every (· ≠ ServiceCall.random) Q) (world : World) :
    (world.run procedure).2.supply = world.supply :=
  h.keeps (fun after : World => after.supply = world.supply)
    (fun _ between hcall hsupply => (supply_answer between hcall).trans hsupply) rfl

end World

theorem OneTimeCode.every_spend (purpose : CodePurpose) (recipient code : String) :
    (spend purpose recipient code).Every (· ≠ ServiceCall.random) fun _ => True := by
  rw [spend_eq]
  refine ⟨by simp, fun answer => ?_⟩
  rcases answer with e | expected
  · trivial
  · show (confirm purpose recipient code expected).Every _ _
    unfold confirm
    split
    · refine ⟨by simp, fun answer => ?_⟩
      rcases answer with e | _
      · trivial
      · trivial
    · trivial

namespace Session

open MemoryStore OneTimeCode

/-! ## The calls -/

/-- A call that replaces a password. -/
inductive PasswordCall where
  /-- An identity shows the old password. -/
  | change (identity : Identity) (old new : String)
  /-- A code is presented that was sent to the account of an identifier. -/
  | reset (identifier code new : String)

namespace PasswordCall

/-- The new password. -/
def new : PasswordCall → String
  | change _ _ new | reset _ _ new => new

/-- The procedure of a call. -/
def procedure (primitives : Primitives) : PasswordCall → Procedure (Except LoginFailure Unit)
  | change identity old new => changePassword primitives identity old new
  | reset identifier code new => resetPassword primitives identifier code new

/-- **Of an identity only the account's id counts**, not the snapshot that it holds. -/
theorem procedure_change_congr (primitives : Primitives) {identity other : Identity}
    (h : other.account.id = identity.account.id) (old new : String) :
    (change other old new).procedure primitives =
      (change identity old new).procedure primitives := by
  rw [procedure, procedure, changePassword, changePassword, h]
  refine congrArg (ite _ _) (congrArg (Procedure.store _ >>= ·) (funext fun found => ?_))
  rcases found with e | _ | account
  · rfl
  · rfl
  · rfl

/-- Finds out whose password a call may replace. -/
def authorise (primitives : Primitives) : PasswordCall → Procedure (Except LoginFailure Account)
  | change identity old _ => do
    match ← Procedure.store (.account identity.account.id) with
    | .error e => return .error (.store e)
    | .ok none => return .error .notRegistered
    | .ok (some account) =>
      match primitives.checkPassword old account.passwordHash with
      | .error fault => return .error (.hash fault)
      | .ok false => return .error .wrongOldPassword
      | .ok true => return .ok account
  | reset identifier code _ =>
    presenting .resetPassword identifier code fun account => return .ok account

/-- **A call with a strong password** first finds out whose password it may replace. -/
theorem procedure_eq (primitives : Primitives) (call : PasswordCall) :
    call.procedure primitives =
      if Password.isStrong call.new then
        call.authorise primitives >>= fun (found : Except LoginFailure Account) =>
          match found with
          | .error failure => .done (.error failure)
          | .ok account => savePassword primitives account.id call.new
      else .done (.error .weakPassword) := by
  cases hstrong : Password.isStrong call.new with
  | false =>
    cases call with
    | change identity old new =>
      rw [procedure, changePassword, if_pos (by simpa [PasswordCall.new] using hstrong)]
      rfl
    | reset identifier code new =>
      rw [procedure, resetPassword, if_pos (by simpa [PasswordCall.new] using hstrong)]
      rfl
  | true =>
    rw [if_pos rfl]
    cases call with
    | change identity old new =>
      rw [procedure, changePassword, if_neg (by simpa [PasswordCall.new] using hstrong), authorise,
        Dialogue.bind_assoc]
      refine congrArg (Procedure.store _ >>= ·) (funext fun found => ?_)
      rcases found with e | _ | account
      · rfl
      · rfl
      · dsimp only
        rcases primitives.checkPassword old account.passwordHash with fault | _ | _
        · rfl
        · rfl
        · rfl
    | reset identifier code new =>
      rw [procedure, resetPassword, if_neg (by simpa [PasswordCall.new] using hstrong), authorise,
        presenting, Dialogue.bind_assoc]
      refine congrArg (accountOf identifier >>= ·) (funext fun found => ?_)
      rcases found with e | _ | account
      · rfl
      · rfl
      · simp only [Dialogue.bind_assoc]
        refine congrArg (spend _ _ _ >>= ·) (funext fun spent => ?_)
        rcases spent with e | _ | _
        · rfl
        · rfl
        · rfl

/-! ## Whose password may be replaced -/

/-- **What entitles a call to replace the password of a row.**  The old password is checked
against the row that stands in the store; a code that is presented was kept for the row's account,
was still alive, and is used up. -/
inductive Authorised (primitives : Primitives) (before after : World) :
    PasswordCall → Account → Prop where
  | change {identity : Identity} {old new : String} {row : Account}
      (hid : row.id = identity.account.id)
      (hchecked : primitives.checkPassword old row.passwordHash = .ok true)
      (hentry : after.entry = before.entry) :
      Authorised primitives before after (.change identity old new) row
  | reset {identifier code new : String} {row : Account}
      (hidentified : Identifies before.store identifier row) (hnonempty : code ≠ "")
      (hread : before.reads (codeKey .resetPassword (Text.decimal row.id)) = some code)
      (hentry : after.entry =
        Function.update before.entry (codeKey .resetPassword (Text.decimal row.id)) none) :
      Authorised primitives before after (.reset identifier code new) row

/-- **Finding out whose password may be replaced**, in any surroundings: it comes to a row of the
store that the call is entitled to, or to a failure, and writes nothing to the store. -/
theorem run_authorise (primitives : Primitives) {before : World} (hfiled : before.store.Filed)
    (call : PasswordCall) :
    ∃ result asked, before.run (call.authorise primitives) = (.finished result, asked) ∧
      asked.supply = before.supply ∧
      asked.store = { before.store with accountReads := asked.store.accountReads } ∧
      ((∃ failure, result = .error failure ∧ failure ≠ .weakPassword) ∨
        ∃ row, result = .ok row ∧ before.store.accounts[row.id]? = some row ∧
          row.isDeleted = false ∧ call.Authorised primitives before asked row) := by
  cases call with
  | change identity old new =>
    obtain ⟨result, asked, hrun, hasked, hfound⟩ :=
      before.run_account_cases identity.account.id
    have hsupply := hasked.supply
    have hstore := hasked.store
    rw [authorise, World.run_bind hrun]
    rcases hfound with ⟨-, e, rfl⟩ | ⟨-, rfl⟩
    · exact ⟨_, asked, rfl, hsupply, hstore, Or.inl ⟨_, rfl, by simp⟩⟩
    · rcases hrow : before.store.account? identity.account.id with _ | row
      · exact ⟨_, asked, rfl, hsupply, hstore, Or.inl ⟨_, rfl, by simp⟩⟩
      · have hid : row.id = identity.account.id := hfiled.id_of_account? hrow
        obtain ⟨hheld, hkept⟩ := Option.filter_eq_some_iff.1 hrow
        dsimp only
        rcases hchecked : primitives.checkPassword old row.passwordHash with fault | _ | _
        · exact ⟨_, asked, rfl, hsupply, hstore, Or.inl ⟨_, rfl, by simp⟩⟩
        · exact ⟨_, asked, rfl, hsupply, hstore, Or.inl ⟨_, rfl, by simp⟩⟩
        · exact ⟨_, asked, rfl, hsupply, hstore, Or.inr ⟨row, rfl, hid ▸ hheld,
            by simpa using hkept, .change hid hchecked hasked.entry⟩⟩
  | reset identifier code new =>
    obtain ⟨result, looked, hrun, hspares, hunmoved, hfound⟩ :=
      run_accountOf_cases before identifier
    have hsupply := hunmoved.supply
    rw [authorise, presenting, World.run_bind hrun]
    rcases hfound with rfl | ⟨-, e, rfl⟩
    · rcases hrow : (Identifier.read? identifier).bind before.store.accountOf? with _ | row
      · exact ⟨_, looked, rfl, hsupply, hspares.store, Or.inl ⟨_, rfl, by simp⟩⟩
      · have hidentified : Identifies before.store identifier row :=
          (identifies_iff hfiled).2 hrow
        obtain ⟨_, -, hnewest⟩ := id hidentified
        obtain ⟨spent, after, hspend, -, hstore, hends⟩ :=
          run_spend_cases looked .resetPassword (Text.decimal row.id) code
        have hdrawn : after.supply = before.supply := by
          have hspent :=
            World.supply_run (every_spend .resetPassword (Text.decimal row.id) code) looked
          rw [hspend] at hspent
          exact hspent.trans hsupply
        have hrows : after.store =
            { before.store with accountReads := after.store.accountReads } := by
          rw [hstore]
          exact hspares.store
        -- The code is read after the look-up, which leaves clock and entries as they were.
        have hreads : looked.reads (codeKey .resetPassword (Text.decimal row.id)) =
            before.reads (codeKey .resetPassword (Text.decimal row.id)) :=
          World.reads_congr hspares.clock (congrFun hspares.entry _)
        simp only [World.run_bind hspend]
        cases hends with
        | failed e hentry => exact ⟨_, after, rfl, hdrawn, hrows, Or.inl ⟨_, rfl, by simp⟩⟩
        | rejected hother hentry => exact ⟨_, after, rfl, hdrawn, hrows, Or.inl ⟨_, rfl, by simp⟩⟩
        | accepted hnonempty hread hentry =>
          refine ⟨_, after, rfl, hdrawn, hrows, Or.inr ⟨row, rfl, hnewest.held, hnewest.found.1,
            .reset hidentified hnonempty (hreads ▸ hread) (hspares.entry ▸ hentry)⟩⟩
    · exact ⟨_, looked, rfl, hsupply, hspares.store, Or.inl ⟨_, rfl, by simp⟩⟩

/-- **Saving a password** in any surroundings: the hash of one row is replaced, or nothing is
written. -/
theorem run_savePassword (primitives : Primitives) (world : World) (account : Int64)
    (password : String) :
    ∃ result after, world.run (savePassword primitives account password) =
        (.finished result, after) ∧ after.entry = world.entry ∧
      ((world.fails .storeSetPassword = true ∧ ∃ e, result = .error (.store e) ∧
          after.store = world.store) ∨
        (result = .ok () ∧ after.store = world.store.modifyAccount account
          ({ · with passwordHash := primitives.hashPassword (world.supply 0) password }))) := by
  have hdraw : world.run Procedure.random =
      (.finished (world.supply 0), { world with supply := fun n => world.supply (n + 1) }) := rfl
  rw [savePassword, World.run_bind hdraw]
  obtain ⟨faults, -, ⟨hfails, e, hrun⟩ | ⟨-, hrun⟩⟩ := World.run_store_cases
    { world with supply := fun n => world.supply (n + 1) }
    (.setPassword account (primitives.hashPassword (world.supply 0) password))
  · rw [World.run_bind hrun]
    exact ⟨_, _, rfl, rfl, Or.inl ⟨hfails, e, rfl, rfl⟩⟩
  · rw [World.run_bind hrun]
    exact ⟨_, _, rfl, rfl, Or.inr ⟨rfl, rfl⟩⟩

/-! ## The whole call -/

/-- A call replaces the password of a row and nothing else. -/
structure Replaces (primitives : Primitives) (before after : World) (call : PasswordCall)
    (row : Account) : Prop where
  held : before.store.accounts[row.id]? = some row
  kept : row.isDeleted = false
  authorised : call.Authorised primitives before after row
  strong : Password.isStrong call.new = true
  store : after.store = { before.store.modifyAccount row.id ({ · with
      passwordHash := primitives.hashPassword (before.supply 0) call.new }) with
    accountReads := after.store.accountReads }

/-- What a call can come to: its password is weak, and nothing was asked; or it fails for another
reason and every row stands as it was; or it has replaced the password of a row. -/
inductive Ends (primitives : Primitives) (before : World) (call : PasswordCall) :
    Except LoginFailure Unit → World → Prop where
  | weak (hweak : Password.isStrong call.new = false) :
      Ends primitives before call (.error .weakPassword) before
  | failed {failure : LoginFailure} {after : World} (hstrong : Password.isStrong call.new = true)
      (hfailure : failure ≠ .weakPassword)
      (hstore : after.store = { before.store with accountReads := after.store.accountReads }) :
      Ends primitives before call (.error failure) after
  | replaced {row : Account} {after : World} (h : call.Replaces primitives before after row) :
      Ends primitives before call (.ok ()) after

/-- **A call in any surroundings.** -/
theorem run_procedure (primitives : Primitives) {before : World} (hfiled : before.store.Filed)
    (call : PasswordCall) :
    ∃ result after, before.run (call.procedure primitives) = (.finished result, after) ∧
      call.Ends primitives before result after := by
  rw [procedure_eq]
  cases hstrong : Password.isStrong call.new with
  | false => exact ⟨_, before, rfl, .weak hstrong⟩
  | true =>
    obtain ⟨result, asked, hrun, hsupply, hstore, hresult⟩ := run_authorise primitives hfiled call
    rw [if_pos rfl, World.run_bind hrun]
    rcases hresult with ⟨failure, rfl, hfailure⟩ | ⟨row, rfl, hheld, hkept, hauthorised⟩
    · exact ⟨_, asked, rfl, .failed hstrong hfailure hstore⟩
    · obtain ⟨result, after, hsave, hentry, hsaved⟩ :=
        run_savePassword primitives asked row.id call.new
      rw [hsupply, hstore] at hsaved
      refine ⟨result, after, hsave, ?_⟩
      rcases hsaved with ⟨-, e, rfl, hsaved⟩ | ⟨rfl, hsaved⟩
      · exact .failed hstrong (by simp) (by rw [hsaved])
      · have hauthorised : call.Authorised primitives before after row := by
          cases hauthorised with
          | change hid hchecked hasked => exact .change hid hchecked (hentry.trans hasked)
          | reset hidentified hnonempty hread hasked =>
            exact .reset hidentified hnonempty hread (hentry.trans hasked)
        exact .replaced ⟨hheld, hkept, hauthorised, hstrong, by rw [hsaved]; rfl⟩

/-! ## Signing in with the new password -/

/-- **A password passes the check** for an account, in some surroundings. -/
structure PassesCheck (primitives : Primitives) (world : World) (text password : String)
    (account : Account) : Prop where
  /-- If accounts can be looked up now, signing in goes on to open a session. -/
  goesOn : world.fails .storeAccountOf = false → ∀ ttl scene, ∃ looked,
    World.Spares world looked ∧
      world.run (loginWithPassword primitives ttl text password scene) =
        looked.run (openFor ttl account scene)
  /-- A login that fails could not look the account up, or had passed the check. -/
  notRefused : ∀ ttl scene failure,
    (world.run (loginWithPassword primitives ttl text password scene)).1 =
        .finished (.error failure) →
      (world.fails .storeAccountOf = true ∧ ∃ e, failure = .store e) ∨ IsOfOpening failure
  /-- If nothing fails now and both deadlines can be told, a session is open afterwards. -/
  opens : world.Calm → ∀ ttl scene deadline expiresAt,
    expiry? world.clock ttl = some deadline → expiryOf world.wall ttl = some expiresAt →
    (∀ e, world.entry (slotKey ⟨account.id, scene⟩) = some e → ∃ v d, e = .textUntil v d) →
    (world.run (loginWithPassword primitives ttl text password scene)).1 =
      .finished (.ok ⟨{ account with lastLoginAt := some world.wall },
        freshToken (world.supply 0), expiresAt⟩)

section Admitted

variable {primitives : Primitives} {world : World} {text password : String} {account : Account}

/-- Whom a password lets in is looked up and has a session opened, unless look-ups fail now. -/
theorem run_loginWithPassword_of_admitted (hfiled : world.store.Filed)
    (h : Admitted primitives world.store text password account) (ttl : UInt64) (scene : Scene) :
    ∃ looked, World.Spares world looked ∧
      ((world.fails .storeAccountOf = true ∧ ∃ e,
          world.run (loginWithPassword primitives ttl text password scene) =
            (.finished (.error (.store e)), looked)) ∨
        world.run (loginWithPassword primitives ttl text password scene) =
          looked.run (openFor ttl account scene)) := by
  obtain ⟨result, looked, hrun, hspares, -, hfound⟩ := run_accountOf_cases world text
  refine ⟨looked, hspares, ?_⟩
  rw [loginWithPassword_eq, World.run_bind hrun]
  rcases hfound with rfl | ⟨hfails, e, rfl⟩
  · refine Or.inr ?_
    simp only [(letIn_eq_ok_iff hfiled).2 h]
  · exact Or.inl ⟨hfails, e, rfl⟩

/-- Whom a password lets in passes the check. -/
theorem passesCheck_of_admitted (hfiled : world.store.Filed)
    (h : Admitted primitives world.store text password account) :
    PassesCheck primitives world text password account where
  goesOn hpasses ttl scene := by
    obtain ⟨looked, hspares, ⟨hfails, -⟩ | hopening⟩ :=
      run_loginWithPassword_of_admitted hfiled h ttl scene
    · exact absurd (hpasses.symm.trans hfails) (by simp)
    · exact ⟨looked, hspares, hopening⟩
  notRefused ttl scene failure hfailed := by
    obtain ⟨looked, -, ⟨hfails, e, hrun⟩ | hopening⟩ :=
      run_loginWithPassword_of_admitted hfiled h ttl scene
    · rw [hrun] at hfailed
      exact Or.inl ⟨hfails, e, (Except.error.inj (Outcome.finished.inj hfailed)).symm⟩
    · rw [hopening] at hfailed
      exact Or.inr ((ActedFor.run (every_openFor ttl account scene) looked).2 _ hfailed |>.2 _ rfl)
  opens hcalm ttl scene deadline expiresAt hdeadline hexpires htext := by
    obtain ⟨log, hrun⟩ := run_loginWithPassword hcalm primitives ttl text password scene
    simp only [(letIn_eq_ok_iff hfiled).2 h] at hrun
    have hlooked : World.Calm { world with log } := ⟨hcalm.no_fault, hcalm.available⟩
    obtain ⟨refreshed, after, hopening, -⟩ :=
      run_openFor hlooked account scene hdeadline hexpires htext
    rw [hrun, hopening]

end Admitted

section Replaced

variable {primitives : Primitives} {before after : World} {call : PasswordCall} {row : Account}

theorem Replaces.held_after (h : call.Replaces primitives before after row) :
    after.store.accounts[row.id]? = some { row with
      passwordHash := primitives.hashPassword (before.supply 0) call.new } := by
  have hrow := getElem?_modifyAccount_self before.store row.id ({ · with
    passwordHash := primitives.hashPassword (before.supply 0) call.new })
  rw [h.held] at hrow
  rw [h.store]
  exact hrow

theorem Replaces.filed_after (h : call.Replaces primitives before after row)
    (hfiled : before.store.Filed) : after.store.Filed := by
  rw [h.store]
  exact hfiled.modifyAccount (fun account => by rfl) row.id

/-- **The hash of this account changes, and no other**, if the new hash is a new one. -/
theorem Replaces.passwordOf_ne_iff (h : call.Replaces primitives before after row)
    (hfresh : ∀ id, before.store.passwordOf id ≠
      some (primitives.hashPassword (before.supply 0) call.new)) (id : Int64) :
    after.store.passwordOf id ≠ before.store.passwordOf id ↔ id = row.id := by
  constructor
  · intro hchanged
    by_contra hne
    refine hchanged ?_
    rw [h.store]
    exact passwordOf_modifyAccount_of_ne _ hne
  · rintro rfl hsame
    refine hfresh row.id ?_
    rw [← hsame, passwordOf, h.held_after]
    rfl

/-- **With the new password the account can sign in**, as long as its row stands so. -/
theorem Replaces.passesCheck (h : call.Replaces primitives before after row)
    (hfiled : before.store.Filed)
    (hcheck : primitives.checkPassword call.new
      (primitives.hashPassword (before.supply 0) call.new) = .ok true) {later : World}
    (hlater : later.store.accounts = after.store.accounts) {text : String} {account : Account}
    (hidentified : Identifies later.store text account)
    (hid : account.id = row.id) (henabled : account.status = .enabled) :
    PassesCheck primitives later text call.new account := by
  have hfiled' : later.store.Filed := by
    intro id found hfound
    rw [hlater] at hfound
    exact h.filed_after hfiled id found hfound
  refine passesCheck_of_admitted hfiled' ⟨hidentified, ?_, henabled⟩
  -- The account that the text finds later has the row whose hash was replaced.
  obtain ⟨_, -, hnewest⟩ := hidentified
  have hheld := hnewest.held
  rw [hid, hlater, h.held_after] at hheld
  rw [← Option.some.inj hheld]
  exact hcheck

end Replaced

/-- **Passwords are replaced only by those who may**, from any surroundings in which rows stand
under their own ids, whichever calls fail.  A call always comes to a result.  It changes a stored
hash exactly if it succeeds; then it changes that of one account, for which it was entitled, and
nothing else in the store, and the account can sign in with the new password.  A weak password is
refused before anything is asked, and what an identity says of its account, apart from its id,
makes no difference.

Of hashing it is assumed that the password has the hash that is made of it, and that this hash,
made with fresh bytes, is none of those in the store. -/
theorem changes_password_iff (primitives : Primitives) {before : World}
    (hfiled : before.store.Filed) (call : PasswordCall)
    (hcheck : primitives.checkPassword call.new
      (primitives.hashPassword (before.supply 0) call.new) = .ok true)
    (hfresh : ∀ id, before.store.passwordOf id ≠
      some (primitives.hashPassword (before.supply 0) call.new)) :
    ∃ result after, before.run (call.procedure primitives) = (.finished result, after) ∧
      ((∃ id, after.store.passwordOf id ≠ before.store.passwordOf id) ↔ result = .ok ()) ∧
      (result = .ok () → ∃ row, call.Replaces primitives before after row ∧
        (∀ id, after.store.passwordOf id ≠ before.store.passwordOf id ↔ id = row.id) ∧
        ∀ later text account, later.store.accounts = after.store.accounts →
          Identifies later.store text account → account.id = row.id → account.status = .enabled →
          PassesCheck primitives later text call.new account) ∧
      (result ≠ .ok () →
        after.store = { before.store with accountReads := after.store.accountReads }) ∧
      (result = .error .weakPassword ↔ Password.isStrong call.new = false) ∧
      (Password.isStrong call.new = false → after = before) ∧
      ∀ identity other old new, call = .change identity old new →
        other.account.id = identity.account.id →
        (change other old new).procedure primitives = call.procedure primitives := by
  obtain ⟨result, after, hrun, hends⟩ := run_procedure primitives hfiled call
  have hunchanged : after.store = { before.store with accountReads := after.store.accountReads } →
      ¬∃ id, after.store.passwordOf id ≠ before.store.passwordOf id := by
    rintro hstore ⟨id, hchanged⟩
    rw [hstore] at hchanged
    exact hchanged rfl
  refine ⟨result, after, hrun, ?_, ?_, ?_, ?_, ?_, ?_⟩
  · cases hends with
    | weak hweak => exact iff_of_false (hunchanged rfl) (by simp)
    | failed hstrong hfailure hstore => exact iff_of_false (hunchanged hstore) (by simp)
    | replaced h => exact iff_of_true ⟨_, (h.passwordOf_ne_iff hfresh _).2 rfl⟩ rfl
  · rintro rfl
    cases hends with
    | replaced h =>
      exact ⟨_, h, h.passwordOf_ne_iff hfresh,
        fun later text account hlater hidentified hid henabled =>
          h.passesCheck hfiled hcheck hlater hidentified hid henabled⟩
  · intro hfailed
    cases hends with
    | weak hweak => rfl
    | failed hstrong hfailure hstore => exact hstore
    | replaced h => exact absurd rfl hfailed
  · cases hends with
    | weak hweak => exact iff_of_true rfl hweak
    | failed hstrong hfailure hstore => simp [hstrong, hfailure]
    | replaced h => simp [h.strong]
  · intro hweak
    cases hends with
    | weak => rfl
    | failed hstrong hfailure hstore => exact absurd (hweak.symm.trans hstrong) (by simp)
    | replaced h => exact absurd (hweak.symm.trans h.strong) (by simp)
  · rintro identity other old new rfl hid
    exact procedure_change_congr primitives hid old new

/-- What a session says of its account after the password was replaced by somebody else. -/
def outdated : Identity :=
  .ofAccount { alice with passwordHash := "hash of Zyxwvu98" } .web "first"

/-- The store's password counts, not that of the outdated snapshot; and the account signs in with
the new one. -/
theorem changes_password_iff_outdated :
    withAlice.store.Filed ∧
      plain.checkPassword "Ghijkl34" (plain.hashPassword (withAlice.supply 0) "Ghijkl34") =
        .ok true ∧
      (∀ id, withAlice.store.passwordOf id ≠
        some (plain.hashPassword (withAlice.supply 0) "Ghijkl34")) ∧
      ∃ after, withAlice.run (changePassword plain outdated "Abcdef12" "Ghijkl34") =
          (.finished (.ok ()), after) ∧
        (∀ id, after.store.passwordOf id ≠ withAlice.store.passwordOf id ↔ id = 1) ∧
        after.store.passwordOf 1 = some "hash of Ghijkl34" ∧
        PassesCheck plain after "alice" "Ghijkl34"
          { alice with passwordHash := "hash of Ghijkl34" } ∧
        (∃ opened, (after.run (loginWithPassword plain 60 "alice" "Ghijkl34" .web)).1 =
          .finished (.ok opened) ∧ opened.account.id = 1) ∧
        (after.run (loginWithPassword plain 60 "alice" "Abcdef12" .web)).1 =
          .finished (.error .invalidCredentials) := by
  have hcheck : plain.checkPassword "Ghijkl34"
      (plain.hashPassword (withAlice.supply 0) "Ghijkl34") = .ok true := by
    decide
  have hfresh : ∀ id, withAlice.store.passwordOf id ≠
      some (plain.hashPassword (withAlice.supply 0) "Ghijkl34") := by
    intro id hid
    obtain ⟨row, hrow, hhash⟩ := Option.map_eq_some_iff.1 hid
    have hinsert : (({} : MemoryStore).accounts.insert 1 alice)[id]? = some row := hrow
    rw [Std.ExtTreeMap.getElem?_insert] at hinsert
    split at hinsert
    · obtain rfl := Option.some.inj hinsert
      exact absurd hhash (by decide)
    · exact absurd hinsert (by simp)
  refine ⟨filed_ofAlice, hcheck, hfresh, ?_⟩
  obtain ⟨result, after, hrun, -, hok, -⟩ := changes_password_iff plain filed_ofAlice
    (.change outdated "Abcdef12" "Ghijkl34") hcheck hfresh
  have hdecided : (withAlice.run (changePassword plain outdated "Abcdef12" "Ghijkl34")).1 =
      .finished (.ok ()) := by
    decide +kernel
  have hrun' : withAlice.run (changePassword plain outdated "Abcdef12" "Ghijkl34") =
      (.finished result, after) := hrun
  rw [hrun'] at hdecided
  obtain rfl := Outcome.finished.inj hdecided
  obtain ⟨row, hreplaces, hiff, hpasses⟩ := hok rfl
  obtain rfl : row = alice := by
    have hid : row.id = 1 := by
      cases hreplaces.authorised with
      | change hid _ _ => exact hid
    have hheld := hreplaces.held
    rw [hid] at hheld
    exact (Option.some.inj hheld).symm
  have hheld : after.store.accounts[(1 : Int64)]? =
      some { alice with passwordHash := "hash of Ghijkl34" } := hreplaces.held_after
  have hafter : after =
      (withAlice.run (changePassword plain outdated "Abcdef12" "Ghijkl34")).2 := by
    rw [hrun']
  have hidentified : Identifies after.store "alice"
      { alice with passwordHash := "hash of Ghijkl34" } := by
    rw [identifies_iff (hreplaces.filed_after filed_ofAlice), hafter]
    decide +kernel
  have hpassed := hpasses after "alice" _ rfl hidentified rfl rfl
  refine ⟨after, hrun', hiff, by rw [passwordOf, hheld]; rfl, hpassed, ?_, ?_⟩
  · refine ⟨_, hpassed.opens ?_ 60 .web 60000 ⟨60, 0⟩ ?_ ?_ ?_, rfl⟩
    · rw [hafter]
      exact ⟨rfl, rfl⟩
    · rw [hafter]
      decide +kernel
    · rw [hafter]
      decide +kernel
    · intro e hentry
      have hnothing : after.entry (slotKey ⟨1, .web⟩) = none := by
        rw [hafter]
        decide +kernel
      exact absurd (hnothing.symm.trans hentry) (by simp)
  · rw [hafter]
    decide +kernel

end PasswordCall
end Session
end AccountAccess
