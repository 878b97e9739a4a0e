import AccountAccess.Failure
import AccountAccess.Grant.Codes
import AccountAccess.Http.Header
import AccountAccess.Partner.Signature

/-!
# Requests of partners

A partner is another service.  Its requests name it, carry a time and are signed;
the time must be near, the signature must be made with the partner's secret, and
the partner must have been granted the route or everything of the service.  The
code that allows everything is not enough for a partner.
-/

namespace AccountAccess
namespace Partner

/-- The field that names the partner. -/
def nameField : String := "x-api-key"

/-- The field with the time of the request. -/
def timestampField : String := "x-timestamp"

/-- The field with the signature. -/
def signatureField : String := "x-sign"

/-- What stands in the place of a scene when a partner calls. -/
def sceneName : String := "ApiCall"

/-- What a partner's request says of itself. -/
structure Credentials where
  partner : String
  timestamp : Int64
  signature : String
  deriving DecidableEq, Repr

/-- Reads the three fields; each must be readable and not blank, and the time must
be an integer of 64 bits. -/
def Credentials.ofHeaders? (headers : Http.Headers) : Option Credentials := do
  return { partner := ← headers.trimmed? nameField
           timestamp := ← (headers.trimmed? timestampField).bind Text.readInt64?
           signature := ← headers.trimmed? signatureField }

/-- Whether two times are no further apart than a window, in either direction. -/
def isNear (now timestamp window : Int64) : Bool :=
  (now.toInt - timestamp.toInt).natAbs ≤ window.toInt.natAbs

/-- Whether any of some codes is written for a partner. -/
def hasAny (partner : String) (codes : List String) : Procedure (Except CacheError Bool) :=
  Procedure.cache (.anyMember (CacheKey.partnerGrants partner).text codes)

/-- The codes of which any one allows a route to a partner. -/
def candidates (service : String) (route : Route) : List String :=
  [Grant.everythingOf service, route.code service]

/-- The partner that may use a route with a request at a time. -/
def partnerAt (primitives : Primitives) (service : String) (window : Int64)
    (headers : Http.Headers) (route : Route) (now : Int64) : Procedure (Except Refusal String) :=
  match Credentials.ofHeaders? headers with
  | none => return .error .partnerInvalid
  | some credentials =>
    if ¬isNear now credentials.timestamp window then return .error .timestampExpired
    else do
      match ← Procedure.cache (.get (CacheKey.partnerSecret credentials.partner).text) with
      | .error _ | .ok none => return .error .partnerInvalid
      | .ok (some secret) =>
        if ¬hasSignature primitives.sign secret (payload credentials.partner credentials.timestamp)
            credentials.signature then
          return .error .signatureMismatch
        else
          match ← hasAny credentials.partner (candidates service route) with
          | .ok true => return .ok credentials.partner
          | .ok false | .error _ => return .error .forbidden

/-- The partner that may use a route with a request now. -/
def partner (primitives : Primitives) (service : String) (window : Int64)
    (headers : Http.Headers) (route : Route) : Procedure (Except Refusal String) := do
  let now ← Procedure.now
  partnerAt primitives service window headers route (Int64.ofInt now.seconds)

end Partner
end AccountAccess
