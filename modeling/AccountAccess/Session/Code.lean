import AccountAccess.Cache.Key
import AccountAccess.Service.Interface

/-!
# One-time codes

A code is kept for a recipient and a purpose until it expires.  Whoever presents
it spends it.  The empty code is never accepted.
-/

namespace AccountAccess
namespace OneTimeCode

/-- Keeps a code. -/
def put (purpose : CodePurpose) (recipient code : String) (ttl : UInt64) :
    Procedure (Except CacheError Unit) :=
  Procedure.cache (.set (CacheKey.code purpose recipient).text code ttl)

/-- Whether a code is the one kept; if so it is spent. -/
def spend (purpose : CodePurpose) (recipient code : String) :
    Procedure (Except CacheError Bool) := do
  let key := (CacheKey.code purpose recipient).text
  match ← Procedure.cache (.get key) with
  | .error e => return .error e
  | .ok expected =>
    if code ≠ "" ∧ expected = some code then
      match ← Procedure.cache (.remove [key]) with
      | .error e => return .error e
      | .ok () => return .ok true
    else return .ok false

end OneTimeCode
end AccountAccess
