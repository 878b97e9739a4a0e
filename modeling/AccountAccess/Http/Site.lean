import AccountAccess.Http.Endpoint
import AccountAccess.Http.RateLimit

/-!
# Serving requests

A request is counted first.  Then the interface is found whose path fits, its
guard is asked, the method is looked at, and the call is carried out.  The
interfaces are mounted under a base; where that is not possible, no request is
served at all.
-/

namespace AccountAccess
namespace Http

/-- The base without the slashes at its end. -/
def Service.base (service : Service) : String :=
  String.ofList (Route.trimRoot service.settings.baseUri.toList)

/-- The mounted path template of an interface. -/
def Service.mounted (service : Service) (endpoint : Endpoint) : String :=
  service.base ++ endpoint.template

/-- The route of a request to an interface, as permissions see it. -/
def Service.route (service : Service) (endpoint : Endpoint) (method : String) : Route :=
  Route.under service.settings.baseUri method (service.mounted endpoint)

/-- Whether every interface can be mounted: the base allows it, and the mounted
templates are well formed. -/
def Service.canBeMounted (service : Service) : Bool :=
  isMountable service.base &&
    Endpoint.all.all fun endpoint => (Template.read? (service.mounted endpoint)).isSome

/-- The interface whose path fits, with the pieces of the path that are handed on. -/
def Service.find? (service : Service) (path : List Char) : Option (Endpoint × List String) :=
  Endpoint.all.findSome? fun endpoint => do
    let template ← Template.read? (service.mounted endpoint)
    let pieces ← template.fit? path
    return (endpoint, (pieces.filter fun piece => !Template.isReservedName piece.1).map (·.2))

/-- Serves a request that is within the limit. -/
def Service.dispatch (service : Service) (request : Request) : Procedure Response :=
  match service.find? request.path with
  | none => return .plain 404
  | some (endpoint, pieces) => do
    let admitted ← endpoint.guard.caller service request.headers
      (service.route endpoint request.method)
    match admitted with
    | .error refusal => return .ofRefusal refusal
    | .ok caller =>
      if endpoint.acceptsMethod request.method then
        endpoint.handle service request pieces caller
      else return .plain 405

/-- Whether an answer to a request is sent without its body: an answer to `HEAD` and
a success of `CONNECT`.  An answer about a path that fits no interface keeps its body
even when it answers `HEAD`. -/
def Service.omitsBody (service : Service) (request : Request) (status : Nat) : Bool :=
  let fitsNone := request.path.head? == some '/' && (service.find? request.path).isNone
  (request.method == "HEAD" && !fitsNone) ||
    (request.method == "CONNECT" && 200 ≤ status && status < 300)

/-- An answer as it is sent. -/
def Service.sent (service : Service) (request : Request) (response : Response) : Response :=
  if service.omitsBody request response.status then { response with body := "" } else response

/-- Serves a request. -/
def Service.serve (service : Service) (request : Request) : Procedure Response :=
  if ¬service.canBeMounted then Dialogue.abort
  else do
    let client := clientName request.headers request.remote
    let limited ← limitRequests service.settings.rateWindow service.settings.rateLimit client
    match limited with
    | some response => return service.sent request response
    | none =>
      let response ← service.dispatch request
      return service.sent request response.logged

end Http
end AccountAccess
