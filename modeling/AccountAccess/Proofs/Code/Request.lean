import AccountAccess.Proofs.Service.Readings
import AccountAccess.Proofs.Session.Acting

/-!
# Requests that present a code

Signing in with a code and setting a new password with one begin alike: the account is
looked up, the code that was presented for it is spent, and then the request acts for the
account.  `presenting` is that common part, and both requests are cases of it.

What a request does after the code was accepted is done for the account that the code was
kept for, so `ActedFor` bounds it: it touches no other code, opens no other account's session
and changes no other account's password.

The result of a request tells on which side of the code it ended.  A request that is turned away
has spent nothing; one that fails in any other way has spent its code, or has found out nothing and
changed nothing.

## Main definitions and results

* `presenting`: looks an account up, spends the code and goes on for the account.
* `Request`, `Request.procedure_eq`: both requests are turned away for a weak password or present
  their code.
* `Request.every_act`: what is done once the code was accepted is done for the account.
* `run_accountOf_cases`: looking up the account that a text identifies, in any surroundings.
* `Request.Ends`, `Request.run_cases`: the ends of a request, and that there are no others.
-/

namespace AccountAccess
namespace OneTimeCode

open Session

/-! ## The common part -/

/-- Looks an account up, spends the code that is presented for it, and goes on for the
account. -/
def presenting {α : Type} (purpose : CodePurpose) (identifier code : String)
    (next : Account → Procedure (Except LoginFailure α)) : Procedure (Except LoginFailure α) := do
  match ← accountOf identifier with
  | .error e => return .error (.store e)
  | .ok none => return .error .notRegistered
  | .ok (some account) =>
    match ← spend purpose (Text.decimal account.id) code with
    | .error e => return .error (.cache e)
    | .ok false => return .error .invalidCode
    | .ok true => next account

/-- What is done with the result is done at the end. -/
theorem presenting_bind {α β : Type} (purpose : CodePurpose) (identifier code : String)
    (next : Account → Procedure (Except LoginFailure α)) (f : α → β) :
    (presenting purpose identifier code next >>= fun result => .done (result.map f)) =
      presenting purpose identifier code
        fun account => next account >>= fun result => .done (result.map f) := by
  rw [presenting, presenting, Dialogue.bind_assoc]
  refine congrArg (accountOf identifier >>= ·) (funext fun found => ?_)
  rcases found with e | _ | account
  · rfl
  · rfl
  · simp only [Dialogue.bind_assoc]
    refine congrArg (spend purpose (Text.decimal account.id) code >>= ·) (funext fun spent => ?_)
    rcases spent with e | _ | _
    · rfl
    · rfl
    · rfl

/-- A request that presents a code. -/
inductive Request where
  | login (identifier code : String) (scene : Scene) (ttl : UInt64)
  | reset (identifier code password : String)
  deriving DecidableEq, Repr

namespace Request

/-- What the presented code has to be kept for. -/
def purpose : Request → CodePurpose
  | login .. => .login
  | reset .. => .resetPassword

/-- For whom the request is made. -/
def identifier : Request → String
  | login identifier _ _ _ | reset identifier _ _ => identifier

/-- The code that is presented. -/
def code : Request → String
  | login _ code _ _ | reset _ code _ => code

/-- The procedure of a request; a login that succeeds gives a session. -/
def procedure (primitives : Primitives) :
    Request → Procedure (Except LoginFailure (Option Opened))
  | login identifier code scene ttl =>
    loginWithCode ttl identifier code scene >>= fun result => .done (result.map some)
  | reset identifier code password =>
    resetPassword primitives identifier code password >>=
      fun result => .done (result.map fun _ => none)

/-- What a request does for an account once the code was accepted. -/
def act (primitives : Primitives) :
    Request → Account → Procedure (Except LoginFailure (Option Opened))
  | login _ _ scene ttl, account =>
    (if account.isActive then openFor ttl account scene else .done (.error .disabled)) >>=
      fun result => .done (result.map some)
  | reset _ _ password, account =>
    savePassword primitives account.id password >>= fun result => .done (result.map fun _ => none)

/-- Whether the request is turned away for its new password alone. -/
def IsWeak : Request → Prop
  | login .. => False
  | reset _ _ password => Password.isStrong password = false

instance (request : Request) : Decidable request.IsWeak :=
  match request with
  | login .. => inferInstanceAs (Decidable False)
  | reset _ _ password => inferInstanceAs (Decidable (Password.isStrong password = false))

/-- **Every request is turned away for its password or presents its code.** -/
theorem procedure_eq (primitives : Primitives) (request : Request) :
    request.procedure primitives =
      if request.IsWeak then .done (.error .weakPassword)
      else presenting request.purpose request.identifier request.code (request.act primitives) := by
  cases request with
  | login identifier code scene ttl =>
    have hlogin : loginWithCode ttl identifier code scene =
        presenting .login identifier code fun account =>
          if account.isActive then openFor ttl account scene else .done (.error .disabled) := rfl
    rw [if_neg (show ¬(login identifier code scene ttl).IsWeak from id), procedure, hlogin]
    exact presenting_bind ..
  | reset identifier code password =>
    by_cases hweak : (reset identifier code password).IsWeak
    · have hreset : resetPassword primitives identifier code password =
          .done (.error .weakPassword) := by
        rw [resetPassword, if_pos (by simpa [IsWeak] using hweak)]
        rfl
      rw [if_pos hweak, procedure, hreset]
      rfl
    · have hreset : resetPassword primitives identifier code password =
          presenting .resetPassword identifier code fun account =>
            savePassword primitives account.id password := by
        rw [resetPassword, if_neg (by simpa [IsWeak] using hweak)]
        rfl
      rw [if_neg hweak, procedure, hreset]
      exact presenting_bind ..

end Request

/-- **What a request does once its code was accepted is done for the account**, and it is
not turned away any more. -/
theorem Request.every_act (primitives : Primitives) (request : Request) (account : Account) :
    (request.act primitives account).Every (ActsFor account.id) fun result =>
      (∀ opened, result = .ok (some opened) → opened.account.id = account.id) ∧
        ∀ failure, result = .error failure → ¬IsTurnedAway failure := by
  cases request with
  | login identifier code scene ttl =>
    by_cases hactive : account.isActive = true
    · rw [act, if_pos hactive]
      refine Dialogue.Every.bind (every_openFor ttl account scene) fun result hresult => ?_
      rcases result with failure | opened
      · have hfailure : ¬IsTurnedAway failure := (hresult.2 failure rfl).not_turnedAway
        simpa [Except.map] using hfailure
      · have hopened : opened.account.id = account.id := hresult.1 opened rfl
        simpa [Except.map] using hopened
    · rw [act, if_neg hactive]
      simp [IsTurnedAway, Except.map]
  | reset identifier code password =>
    refine Dialogue.Every.bind (every_savePassword primitives account.id password)
      fun result hresult => ?_
    rcases result with failure | _
    · have hfailure : ¬IsTurnedAway failure := hresult failure rfl
      simpa [Except.map] using hfailure
    · simp [Except.map]

/-! ## The effect of a request -/

/-- The account that a text identifies is looked up, unless look-ups fail now; nothing is
written. -/
theorem run_accountOf_cases (world : World) (text : String) :
    ∃ result looked, world.run (accountOf text) = (.finished result, looked) ∧
      World.Spares world looked ∧ Unmoved world looked ∧
      (result = .ok ((Identifier.read? text).bind world.store.accountOf?) ∨
        world.fails .storeAccountOf = true ∧ ∃ e, result = .error e) := by
  rw [accountOf]
  cases Identifier.read? text with
  | none => exact ⟨_, world, rfl, .refl world, ⟨rfl, rfl, rfl⟩, Or.inl rfl⟩
  | some identifier =>
    obtain ⟨faults, -, ⟨hfails, e, hrun⟩ | ⟨-, hrun⟩⟩ :=
      world.run_store_cases (.accountOf identifier)
    · exact ⟨_, _, hrun, ⟨rfl, rfl, rfl⟩, ⟨rfl, rfl, rfl⟩, Or.inr ⟨hfails, e, rfl⟩⟩
    · exact ⟨_, _, hrun, ⟨rfl, rfl, rfl⟩, ⟨rfl, rfl, rfl⟩, Or.inl rfl⟩

/-- What a request can come to.  Either it fails and nothing has changed, or the code that it
presents was read for an account and is gone, and the rest was done for that account. -/
inductive Request.Ends (request : Request) (before : World) :
    Outcome (Except LoginFailure (Option Opened)) → World → Prop where
  | refused {failure : LoginFailure} {after : World} (hclock : after.clock = before.clock)
    (hentry : after.entry = before.entry) (hstore : after.store = before.store) :
    Request.Ends request before (.finished (.error failure)) after
  | honoured (account : Int64) {spent after : World}
    {outcome : Outcome (Except LoginFailure (Option Opened))} (hnonempty : request.code ≠ "")
    (hread : before.reads (codeKey request.purpose (Text.decimal account)) = some request.code)
    (hclock : spent.clock = before.clock) (hstore : spent.store = before.store)
    (hentry : spent.entry = Function.update before.entry
      (codeKey request.purpose (Text.decimal account)) none)
    (hacted : ActedFor account spent after)
    (hopened : ∀ opened, outcome = .finished (.ok (some opened)) → opened.account.id = account)
    (hfailure : ∀ failure, outcome = .finished (.error failure) → ¬IsTurnedAway failure)
    (hfound : ∃ row, (Identifier.read? request.identifier).bind before.store.accountOf? =
      some row ∧ row.id = account) :
    Request.Ends request before outcome after

/-- **A request in any surroundings.** -/
theorem Request.run_cases (primitives : Primitives) (request : Request) (before : World) :
    request.Ends before (before.run (request.procedure primitives)).1
      (before.run (request.procedure primitives)).2 := by
  rw [procedure_eq]
  split
  · exact .refused rfl rfl rfl
  · obtain ⟨found, looked, hlooked, hspares, hunmoved, hfound⟩ :=
      run_accountOf_cases before request.identifier
    have hclock := hspares.clock
    have hentry := hspares.entry
    have hstore := hunmoved.store
    rw [presenting, World.run_bind hlooked]
    rcases found with e | _ | account
    · exact .refused hclock hentry hstore
    · exact .refused hclock hentry hstore
    · replace hfound : (Identifier.read? request.identifier).bind before.store.accountOf? =
          some account := by
        rcases hfound with hfound | ⟨-, e, hfound⟩
        · exact (Except.ok.inj hfound).symm
        · exact absurd hfound (by simp)
      obtain ⟨result, spent, hspent, hclock', hstore', hends⟩ :=
        run_spend_cases looked request.purpose (Text.decimal account.id) request.code
      have hreads : looked.reads (codeKey request.purpose (Text.decimal account.id)) =
          before.reads (codeKey request.purpose (Text.decimal account.id)) :=
        World.reads_congr hclock (congrFun hentry _)
      simp only [World.run_bind hspent]
      cases hends with
      | failed e hsame =>
        exact .refused (hclock'.trans hclock) (hsame.trans hentry) (hstore'.trans hstore)
      | rejected hother hsame =>
        exact .refused (hclock'.trans hclock) (hsame.trans hentry) (hstore'.trans hstore)
      | accepted hnonempty hread hgone =>
        rw [hreads] at hread
        rw [hentry] at hgone
        obtain ⟨hacted, hresult⟩ := ActedFor.run (request.every_act primitives account) spent
        refine .honoured account.id hnonempty hread (hclock'.trans hclock) (hstore'.trans hstore)
          hgone hacted ?_ ?_ ⟨account, hfound, rfl⟩
        · intro opened hopened
          exact (hresult _ hopened).1 opened rfl
        · intro failure hfailure
          exact (hresult _ hfailure).2 failure rfl

end OneTimeCode
end AccountAccess
