import AccountAccess.Account.Document
import AccountAccess.Grant.Codes
import AccountAccess.Http.Request
import AccountAccess.Http.Response
import AccountAccess.Http.Template
import AccountAccess.Partner.Admission
import AccountAccess.Session.Login
import AccountAccess.Settings

/-!
# The interfaces that can be called

Each interface has a method, a path template and a *guard*, which decides who may
call it.  The guard comes before anything else that concerns the interface: it
runs for every request whose path fits, whatever its method, and hands on who is
calling.
-/

namespace AccountAccess
namespace Http

/-- The service as it is set up: its settings and its primitives. -/
structure Service where
  settings : Settings
  primitives : Primitives

/-- An interface. -/
inductive Endpoint where
  | loginWithPassword
  | loginWithCode
  | resetPassword
  | logout
  | myself
  | changePassword
  | account
  | accountCodes
  | refreshCodes
  | ping
  deriving DecidableEq, Repr

/-- Who may call an interface. -/
inductive Guard where
  /-- Anyone. -/
  | anyone
  /-- Whoever has a session. -/
  | session
  /-- Whoever has a session and a permission code for the route. -/
  | granted
  /-- Staff with a session. -/
  | staff
  /-- Super administrators with a session. -/
  | superAdmin
  /-- Partners. -/
  | partner
  deriving DecidableEq, Repr

/-- Who is calling, as far as the guard found out. -/
inductive Caller where
  | anyone
  | account (identity : Identity)
  | partner (name : String)

namespace Endpoint

/-- All interfaces. -/
def all : List Endpoint :=
  [loginWithPassword, loginWithCode, resetPassword, logout, myself, changePassword, account,
   accountCodes, refreshCodes, ping]

/-- The path template, below the base. -/
def template : Endpoint → String
  | loginWithPassword => "/v1/auth/login/pwd"
  | loginWithCode => "/v1/auth/login/code"
  | resetPassword => "/v1/auth/password/reset"
  | logout => "/v1/auth/logout"
  | myself => "/v1/auth/myself"
  | changePassword => "/v1/auth/password/change"
  | account => "/v1/accounts/{id}"
  | accountCodes => "/v1/accounts/{id}/permissions"
  | refreshCodes => "/v1/accounts/{id}/permissions/refresh"
  | ping => "/v1/open/ping"

/-- Whether the interface only reads. -/
def isReading : Endpoint → Bool
  | myself | account | accountCodes | ping => true
  | _ => false

/-- Whether a method calls the interface: `POST`, or for one that only reads `GET`
and `HEAD`. -/
def acceptsMethod (endpoint : Endpoint) (method : String) : Bool :=
  if endpoint.isReading then method == "GET" || method == "HEAD" else method == "POST"

/-- The guard of the interface. -/
def guard : Endpoint → Guard
  | loginWithPassword | loginWithCode | resetPassword => .anyone
  | logout | myself | changePassword => .session
  | account => .granted
  | accountCodes => .staff
  | refreshCodes => .superAdmin
  | ping => .partner

end Endpoint

/-! ## Guards -/

/-- Lets a request pass a guard, or refuses it. -/
def Guard.caller (service : Service) (headers : Headers) (route : Route) :
    Guard → Procedure (Except Refusal Caller)
  | .anyone => return .ok .anyone
  | .session => do
    match ← Session.identify headers with
    | .error refusal => return .error refusal
    | .ok identity => return .ok (.account identity)
  | .granted => do
    match ← Session.identify headers with
    | .error refusal => return .error refusal
    | .ok identity =>
      match ← Grant.check service.settings.serviceCode identity route with
      | .error refusal => return .error refusal
      | .ok () => return .ok (.account identity)
  | .staff => do
    match ← Session.identify headers with
    | .error refusal => return .error refusal
    | .ok identity => return (Grant.requireStaff identity).map fun _ => .account identity
  | .superAdmin => do
    match ← Session.identify headers with
    | .error refusal => return .error refusal
    | .ok identity => return (Grant.requireSuperAdmin identity).map fun _ => .account identity
  | .partner => do
    let admitted ← Partner.partner service.primitives service.settings.serviceCode
      service.settings.partnerWindow headers route
    match admitted with
    | .error refusal => return .error refusal
    | .ok name => return .ok (.partner name)

/-! ## What the interfaces do -/

/-- The account id in a path: the only piece of the template.  A piece that is not
text or not an id is refused; with more pieces than one the interface cannot be
served. -/
def pathId (pieces : List String) : Except Nat Int64 :=
  match pieces.mapM Text.percentDecode? with
  | none => .error 400
  | some [piece] =>
    match Text.readInt64? piece with
    | some id => .ok id
    | none => .error 400
  | some _ => .error 500

/-- The answer to a login. -/
def openedResponse : Except LoginFailure Session.Opened → Response
  | .error failure => (Problem.ofLogin failure).response
  | .ok opened => .success <| .object
      [("account", opened.account.document),
       ("token", .text opened.token),
       ("expired_at", opened.expiresAt.document)]

/-- The answer to a call that has no data. -/
def unitResponse : Except LoginFailure Unit → Response
  | .error failure => (Problem.ofLogin failure).response
  | .ok () => .success noData

/-- The permission codes of an account as data. -/
def codesDocument (account : Int64) (codes : List String) : Json.Document :=
  .object [("account_id", .int64 account), ("codes", .array (codes.map .text))]

/-- The answer with the permission codes of an account. -/
def codesResponse (account : Int64) : Except RefreshError (List String) → Response
  | .error error => (Problem.ofRefresh error).response
  | .ok codes => .success (codesDocument account codes)

/-- Continues with the account of an id, which must exist. -/
def withAccount (id : Int64) (next : Account → Procedure Response) : Procedure Response := do
  match ← Procedure.store (.account id) with
  | .error error => return (Problem.ofStore error).response
  | .ok none => return (Problem.notFound "账户不存在").response
  | .ok (some account) => next account

/-- Continues with the value in the body, if it can be read. -/
def withBody (request : Request) (read : Json.Reader α) (next : α → Procedure Response) :
    Procedure Response :=
  match request.readBody read with
  | .error status => return .plain status
  | .ok value => next value

/-- Continues with the account id in the path, if there is one. -/
def withPathId (pieces : List String) (next : Int64 → Procedure Response) : Procedure Response :=
  match pathId pieces with
  | .error status => return .plain status
  | .ok id => next id

/-- Carries out a call that has passed the guard.  `pieces` are those of the
path. -/
def Endpoint.handle (service : Service) (request : Request) (pieces : List String) :
    Endpoint → Caller → Procedure Response
  | .loginWithPassword, _ =>
    withBody request (LoginRequest.reader "password") fun login => do
      return openedResponse (← Session.loginWithPassword service.primitives
        service.settings.tokenTtl login.identifier login.secret login.scene)
  | .loginWithCode, _ =>
    withBody request (LoginRequest.reader "code") fun login => do
      return openedResponse (← Session.loginWithCode service.settings.tokenTtl
        login.identifier login.secret login.scene)
  | .resetPassword, _ =>
    withBody request ResetRequest.reader fun reset => do
      return unitResponse (← Session.resetPassword service.primitives reset.identifier
        reset.code reset.password)
  | .logout, .account identity => do
    return unitResponse (← Session.logout identity)
  | .myself, .account identity => do
    return .success (identity.account.detailDocument (← Procedure.now))
  | .changePassword, .account identity =>
    withBody request ChangeRequest.reader fun change => do
      return unitResponse (← Session.changePassword service.primitives identity
        change.old change.new)
  | .account, .account _ =>
    withPathId pieces fun id => withAccount id fun account => do
      return .success (account.detailDocument (← Procedure.now))
  | .accountCodes, .account _ =>
    withPathId pieces fun id => withAccount id fun account => do
      return codesResponse id (← Grant.derive account)
  | .refreshCodes, .account _ =>
    withPathId pieces fun id => withAccount id fun account => do
      return codesResponse id (← Grant.refresh account)
  | .ping, .partner name =>
    return .success (.object [("api_key", .text name), ("scene", .text Partner.sceneName)])
  | _, _ => return .plain 500

end Http
end AccountAccess
