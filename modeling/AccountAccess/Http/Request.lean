import AccountAccess.Http.Address
import AccountAccess.Http.Header
import AccountAccess.Http.MediaType
import AccountAccess.Json.Record
import AccountAccess.Labelled

/-!
# Requests and their bodies

A body is read only if it is announced as JSON and is not too long.  A body that
is not JSON, or is JSON of another shape, is refused before anything is done.
-/

namespace AccountAccess
namespace Http

/-- A request.  The target is a path, perhaps with a query behind a question mark
or a fragment behind a number sign, and perhaps with a scheme and an authority in
front, as in `http://host/path`. -/
structure Request where
  method : String
  target : String
  headers : Headers := []
  body : List UInt8 := []
  remote : Option Address := none

namespace Request

/-- A character of a scheme.  A scheme is told by these alone: it may begin with any of
them, and may have none. -/
def isSchemeChar (c : Char) : Bool :=
  c.isAlphanum || c == '+' || c == '-' || c == '.' || c == '~'

/-- What is in front of the query and the fragment. -/
def beforeQuery (target : List Char) : List Char :=
  target.takeWhile fun c => c != '?' && c != '#'

/-- The path, without query and fragment.  Behind a scheme and an authority an
empty path is the root; a target of another form has no path. -/
def path (request : Request) : List Char :=
  let target := request.target.toList
  if target.head? = some '/' then beforeQuery target
  else
    match target.dropWhile isSchemeChar with
    | ':' :: '/' :: '/' :: rest =>
      let path := (beforeQuery rest).dropWhile (· != '/')
      if path = [] then ['/'] else path
    | _ => []

/-- The most bytes of a body that are read. -/
def bodyLimit : Nat := 2097152

/-- The value in the body, or the status of the refusal. -/
def readBody (request : Request) (read : Json.Reader α) : Except Nat α :=
  if ¬announcesJson request.headers then .error 415
  else if bodyLimit < request.body.length then .error 413
  else
    match Json.readAll read request.body with
    | .ok value => .ok value
    | .error .malformed => .error 400
    | .error .unsuitable => .error 422

end Request

open Json (Reader field)

/-- What a login with a password, or with a code, is asked with. -/
structure LoginRequest where
  identifier : String
  secret : String
  scene : Scene

/-- A request that is being read; every field is required. -/
structure RequestDraft where
  identifier : Option String := none
  secret : Option String := none
  newPassword : Option String := none
  scene : Option Scene := none

/-- Reads a login request whose secret goes by a name. -/
def LoginRequest.reader (secret : String) : Reader LoginRequest :=
  Json.record
    [field "identifier" Json.string RequestDraft.identifier fun v d => { d with identifier := v },
     field secret Json.string RequestDraft.secret fun v d => { d with secret := v },
     field "scene" Labelled.reader RequestDraft.scene fun v d => { d with scene := some v }]
    {} fun d => do
      return { identifier := ← d.identifier, secret := ← d.secret, scene := ← d.scene }

/-- What a change of password is asked with. -/
structure ChangeRequest where
  old : String
  new : String

/-- Reads a request to change a password. -/
def ChangeRequest.reader : Reader ChangeRequest :=
  Json.record
    [field "old_password" Json.string RequestDraft.secret fun v d => { d with secret := v },
     field "new_password" Json.string RequestDraft.newPassword
       fun v d => { d with newPassword := v }]
    {} fun d => do return { old := ← d.secret, new := ← d.newPassword }

/-- What setting a password with a code is asked with. -/
structure ResetRequest where
  identifier : String
  code : String
  password : String

/-- Reads a request to set a password with a code. -/
def ResetRequest.reader : Reader ResetRequest :=
  Json.record
    [field "identifier" Json.string RequestDraft.identifier fun v d => { d with identifier := v },
     field "code" Json.string RequestDraft.secret fun v d => { d with secret := v },
     field "password" Json.string RequestDraft.newPassword fun v d => { d with newPassword := v }]
    {} fun d => do
      return { identifier := ← d.identifier, code := ← d.secret, password := ← d.newPassword }

end Http
end AccountAccess
