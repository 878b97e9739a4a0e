import AccountAccess.Cache.Key
import AccountAccess.Http.Address
import AccountAccess.Http.Header
import AccountAccess.Http.Response
import AccountAccess.Service.Interface

/-!
# The limit on requests

The requests of a client are counted in windows of fixed length, which begin with
the first request; a request beyond the limit is answered at once.  A client is
known by what proxies say of it, or else by its address.  The limit protects
nothing but the service itself, so that a request passes when it cannot be
counted.
-/

namespace AccountAccess
namespace Http

/-- The text that stands for a client: the real address that a proxy states, or
the first forwarded address that is not blank, or the address of the connection. -/
def clientName (headers : Headers) (remote : Option Address) : String :=
  let forwarded :=
    (headers.readable? "x-forwarded-for").bind fun line =>
      (Text.pieces ',' line).find? fun entry => !Text.isBlankText entry
  let stated := (headers.readable? "x-real-ip").or (forwarded.or (remote.map Address.render))
  Text.trim (stated.getD "unknown")

/-- What a client over the limit is told. -/
def overLimitMessage (window : UInt64) : String :=
  "请求过于频繁，请在" ++ Text.decimalNat window.toNat ++ "秒后重试"

/-- Counts a request and answers it when the client is over the limit. -/
def limitRequests (window : UInt64) (limit : UInt32) (client : String) :
    Procedure (Option Response) := do
  match ← Procedure.cache (.count (CacheKey.requests client).text window) with
  | .error _ => return none
  | .ok count =>
    if limit.toNat < count.toInt then return some (.failure 429 (overLimitMessage window))
    else return none

end Http
end AccountAccess
