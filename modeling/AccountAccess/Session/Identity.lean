import AccountAccess.Session.Bearer
import AccountAccess.Session.Slot

/-!
# Who is asking

A request shows a token.  The token stands for a session, the session for an
account, and the account must still be usable.  A request may also declare the
scene it comes from, and then it must be the scene of the session.

Accounts are looked up in the snapshots of the process first, so that an account
that has just been disabled can pass for as long as its snapshot lives.
-/

namespace AccountAccess

/-- Who makes a request: an account, as it was found, with its session. -/
structure Identity where
  account : Account
  scene : Scene
  token : String
  isStaff : Bool
  isSuperAdmin : Bool
  deriving DecidableEq, Repr

namespace Identity

/-- The identity of an account; its rights are those of the account. -/
def ofAccount (account : Account) (scene : Scene) (token : String) : Identity :=
  ⟨account, scene, token, account.isStaff, account.isSuperAdmin⟩

/-- The owner of the session. -/
def owner (identity : Identity) : SessionOwner :=
  ⟨identity.account.id, identity.scene⟩

end Identity

namespace Session

/-- The field in which a request declares its scene. -/
def sceneField : String := "x-front-scene"

/-- The account with an id: its snapshot, or else the store's account, which
becomes the snapshot. -/
def findAccount (id : Int64) (fetch : Procedure (Except StoreError (Option Account))) :
    Procedure (Except StoreError (Option Account)) := do
  match ← Procedure.retrieve id with
  | some account => return .ok (some account)
  | none =>
    match ← fetch with
    | .error e => return .error e
    | .ok none => return .ok none
    | .ok (some account) =>
      Procedure.remember id account
      return .ok (some account)

/-- The identity that a token gives, with the scene that was declared. -/
def identifyToken (token : String) (declared : Option String) :
    Procedure (Except Refusal Identity) := do
  match ← resolve token with
  | .error _ | .ok none => return .error .sessionInvalid
  | .ok (some owner) =>
    if declared.any (· ≠ Labelled.name owner.scene) then return .error .sceneMismatch
    else
      match ← findAccount owner.account (Procedure.store (.account owner.account)) with
      | .error _ | .ok none => return .error .accountNotFound
      | .ok (some account) =>
        if account.isActive then return .ok (.ofAccount account owner.scene token)
        else return .error .accountNotFound

/-- The identity of a request. -/
def identify (headers : Http.Headers) : Procedure (Except Refusal Identity) :=
  match bearerToken headers with
  | .error refusal => return .error refusal
  | .ok token => identifyToken token (headers.trimmed? sceneField)

end Session
end AccountAccess
