import AccountAccess.Grant.Codes
import AccountAccess.Password.Policy
import AccountAccess.Session.Code
import AccountAccess.Text.Hex

/-!
# Signing in, signing out and changing passwords

Signing in checks a password or spends a one-time code, refreshes the permission
codes of the account, opens a session with a fresh token and notes the time.
That an account is disabled is said only after the check, so only to someone who
knows the password or the code.
-/

namespace AccountAccess
namespace Session

/-- What signing in gives. -/
structure Opened where
  account : Account
  token : String
  expiresAt : Timestamp
  deriving DecidableEq, Repr

/-- A token made of random bytes: 32 hexadecimal digits, of which six bits are
fixed and mark the bytes as random. -/
def freshToken (random : RandomBytes) : String :=
  let marked := (random.set 6 ((random[6] &&& 0x0F) ||| 0x40)).set 8 ((random[8] &&& 0x3F) ||| 0x80)
  Text.hex marked.toList

/-- The account that a text identifies; a text that is no identifier identifies
none. -/
def accountOf (identifier : String) : Procedure (Except StoreError (Option Account)) :=
  match Identifier.read? identifier with
  | none => return .ok none
  | some identifier => Procedure.store (.accountOf identifier)

/-- When a session that is opened at a time expires.  The number of seconds is
taken as a signed number of 64 bits. -/
def expiryOf (now : Timestamp) (ttl : UInt64) : Option Timestamp :=
  now.addSeconds? ttl.toInt64.toInt

/-- Opens a session for an account.  Failing to note the time does not matter.  If
the expiry time cannot be represented, the dialogue breaks off with the session
open. -/
def openFor (ttl : UInt64) (account : Account) (scene : Scene) :
    Procedure (Except LoginFailure Opened) := do
  match ← Grant.refresh account with
  | .error e => return .error (.refresh e)
  | .ok _ =>
    let token := freshToken (← Procedure.random)
    match ← issue ⟨account.id, scene⟩ token ttl with
    | .error e => return .error (.cache e)
    | .ok () =>
      let now ← Procedure.now
      let noted ← Procedure.store (.setLastLogin account.id now)
      let account := match noted with
        | .ok () => { account with lastLoginAt := some now }
        | .error _ => account
      match expiryOf now ttl with
      | some expiresAt => return .ok ⟨account, token, expiresAt⟩
      | none => Dialogue.abort

/-- Signs in with a password. -/
def loginWithPassword (primitives : Primitives) (ttl : UInt64)
    (identifier password : String) (scene : Scene) : Procedure (Except LoginFailure Opened) := do
  match ← accountOf identifier with
  | .error e => return .error (.store e)
  | .ok none => return .error .invalidCredentials
  | .ok (some account) =>
    match primitives.checkPassword password account.passwordHash with
    | .error fault => return .error (.hash fault)
    | .ok false => return .error .invalidCredentials
    | .ok true =>
      if account.isActive then openFor ttl account scene else return .error .disabled

/-- Signs in with a one-time code. -/
def loginWithCode (ttl : UInt64) (identifier code : String) (scene : Scene) :
    Procedure (Except LoginFailure Opened) := do
  match ← accountOf identifier with
  | .error e => return .error (.store e)
  | .ok none => return .error .notRegistered
  | .ok (some account) =>
    match ← OneTimeCode.spend .login (Text.decimal account.id) code with
    | .error e => return .error (.cache e)
    | .ok false => return .error .invalidCode
    | .ok true =>
      if account.isActive then openFor ttl account scene else return .error .disabled

/-- Ends the session of an identity. -/
def logout (identity : Identity) : Procedure (Except LoginFailure Unit) := do
  match ← revoke identity.owner identity.token with
  | .error e => return .error (.cache e)
  | .ok () => return .ok ()

/-- Stores the hash of a new password. -/
def savePassword (primitives : Primitives) (account : Int64) (password : String) :
    Procedure (Except LoginFailure Unit) := do
  let salt ← Procedure.random
  match ← Procedure.store (.setPassword account (primitives.hashPassword salt password)) with
  | .error e => return .error (.store e)
  | .ok () => return .ok ()

/-- Changes the password of an identity that knows the old one.  The old password
is compared with the store's hash, since a snapshot may be out of date. -/
def changePassword (primitives : Primitives) (identity : Identity) (old new : String) :
    Procedure (Except LoginFailure Unit) := do
  if ¬Password.isStrong new then return .error .weakPassword
  else
    match ← Procedure.store (.account identity.account.id) with
    | .error e => return .error (.store e)
    | .ok none => return .error .notRegistered
    | .ok (some account) =>
      match primitives.checkPassword old account.passwordHash with
      | .error fault => return .error (.hash fault)
      | .ok false => return .error .wrongOldPassword
      | .ok true => savePassword primitives account.id new

/-- Sets a new password with a one-time code. -/
def resetPassword (primitives : Primitives) (identifier code password : String) :
    Procedure (Except LoginFailure Unit) := do
  if ¬Password.isStrong password then return .error .weakPassword
  else
    match ← accountOf identifier with
    | .error e => return .error (.store e)
    | .ok none => return .error .notRegistered
    | .ok (some account) =>
      match ← OneTimeCode.spend .resetPassword (Text.decimal account.id) code with
      | .error e => return .error (.cache e)
      | .ok false => return .error .invalidCode
      | .ok true => savePassword primitives account.id password

end Session
end AccountAccess
