import AccountAccess.Cache.Key
import AccountAccess.Service.Interface
import AccountAccess.Session.Owner

/-!
# Session slots

An account has at most one session in each scene: one *slot*.  Two cache entries
stand for it.  The token's entry names the owner and is what a request is checked
against; the slot's entry names the current token, so that the next login can
remove it.  Each is written and removed by a call of its own.
-/

namespace AccountAccess
namespace Session

/-- Opens a session for an owner.  The token is made valid first; then the slot is
taken over, and the token that was swapped out is made invalid. -/
def issue (owner : SessionOwner) (token : String) (ttl : UInt64) :
    Procedure (Except CacheError Unit) := do
  match ← Procedure.cache (.set (CacheKey.token token).text owner.render ttl) with
  | .error e => return .error e
  | .ok () =>
    match ← Procedure.cache (.swap (CacheKey.slot owner.account owner.scene).text token ttl) with
    | .error e => return .error e
    | .ok none => return .ok ()
    | .ok (some previous) =>
      if previous = token then return .ok ()
      else Procedure.cache (.remove [(CacheKey.token previous).text])

/-- The owner of the session that a token stands for; an entry that cannot be read
counts as none. -/
def resolve (token : String) : Procedure (Except CacheError (Option SessionOwner)) := do
  match ← Procedure.cache (.get (CacheKey.token token).text) with
  | .error e => return .error e
  | .ok raw => return .ok (raw.bind SessionOwner.read?)

/-- Ends the session that a token stands for.  The slot is emptied too if it still
holds this token. -/
def revoke (owner : SessionOwner) (token : String) : Procedure (Except CacheError Unit) := do
  let slot := (CacheKey.slot owner.account owner.scene).text
  match ← Procedure.cache (.get slot) with
  | .error e => return .error e
  | .ok current =>
    let keys := if current = some token then [(CacheKey.token token).text, slot]
      else [(CacheKey.token token).text]
    Procedure.cache (.remove keys)

end Session
end AccountAccess
