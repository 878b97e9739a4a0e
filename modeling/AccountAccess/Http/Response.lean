import AccountAccess.Failure
import AccountAccess.Json.Document
import AccountAccess.Json.Record

/-!
# Answers to requests

Every answer of the service itself is an *envelope*: a code, a message and
perhaps some data.  The code is zero when all went well.  Failures that the
sender can do something about keep the status 200 and show in the code; refusals
and internal problems have a status of their own.
-/

namespace AccountAccess
namespace Http

/-- The body of an answer. -/
structure Envelope where
  code : Int32
  message : String
  data : Option Json.Document := none

namespace Envelope

/-- An envelope of a success. -/
def success (data : Json.Document) : Envelope :=
  ⟨0, "success", some data⟩

/-- An envelope of a failure. -/
def failure (code : Int32) (message : String) : Envelope :=
  ⟨code, message, none⟩

/-- The JSON form; data that is not there is left out. -/
def document (envelope : Envelope) : Json.Document :=
  .object <|
    [("code", .number envelope.code.toInt), ("msg", .text envelope.message)] ++
      (envelope.data.map fun data => ("resp_data", data)).toList

/-- An envelope that is being read. -/
structure Draft where
  code : Option Int32 := none
  message : Option String := none
  data : Option (Option Json.Document) := none

/-- Reads an envelope whose data is read in a given way. -/
def reader (data : Json.Reader Json.Document) : Json.Reader Envelope :=
  Json.record
    [Json.field "code" Json.int32 Draft.code fun v d => { d with code := v },
     Json.field "msg" Json.string Draft.message fun v d => { d with message := v },
     Json.field "resp_data" (Json.nullable data) Draft.data fun v d => { d with data := some v }]
    {} fun d => do return { code := ← d.code, message := ← d.message, data := d.data.getD none }

end Envelope

/-- The data of a success that has nothing to say. -/
def noData : Json.Document :=
  .object []

/-- Reads data that has nothing to say: a record without fields. -/
def noDataReader : Json.Reader Json.Document :=
  Json.record [] () fun _ => some noData

/-- An answer: its status, whether its body is JSON, and the body. -/
structure Response where
  status : Nat
  isJson : Bool
  body : String
  deriving DecidableEq, Repr

namespace Response

/-- An answer with an envelope. -/
def ofEnvelope (status : Nat) (envelope : Envelope) : Response :=
  ⟨status, true, envelope.document.render⟩

/-- A success. -/
def success (data : Json.Document) : Response :=
  ofEnvelope 200 (.success data)

/-- A failure that keeps the status 200. -/
def failure (code : Int32) (message : String) : Response :=
  ofEnvelope 200 (.failure code message)

/-- An answer of the router, whose wording does not matter. -/
def plain (status : Nat) : Response :=
  ⟨status, false, ""⟩

/-- The answer to a refused request. -/
def ofRefusal (refusal : Refusal) : Response :=
  ofEnvelope refusal.status (.failure refusal.code refusal.message)

/-- The most bytes of a body that are kept for the log. -/
def loggedBytes : Nat := 4096

/-- An answer after logging.  The bodies of server errors are read for the log; one
that is too long to be read is lost. -/
def logged (response : Response) : Response :=
  if 500 ≤ response.status ∧ response.status < 600 ∧ loggedBytes < response.body.utf8ByteSize then
    { response with body := "" }
  else response

end Response

/-- What went wrong with a request that was let through. -/
inductive Problem where
  | refused (refusal : Refusal)
  | login (failure : LoginFailure)
  | validation (message : String)
  | notFound (message : String)
  | internal (cause : String)

namespace Problem

/-- A failure of signing in: internal reasons are hidden, a weak password is a
matter of validation. -/
def ofLogin (failure : LoginFailure) : Problem :=
  if failure.isInternal then internal failure.message
  else if failure = .weakPassword then validation failure.message
  else login failure

/-- A failure of the store is internal. -/
def ofStore (error : StoreError) : Problem :=
  internal error.message

/-- A failure of deriving permission codes is internal. -/
def ofRefresh (error : RefreshError) : Problem :=
  internal error.message

/-- What is said of the problem inside the service. -/
def message : Problem → String
  | refused refusal => refusal.message
  | login failure => failure.message
  | validation message | notFound message | internal message => message

/-- The answer. -/
def response : Problem → Response
  | refused refusal => .ofRefusal refusal
  | login failure => .failure 1002 failure.message
  | validation message => .failure 1000 message
  | notFound message => .failure 1004 message
  | internal _ => .ofEnvelope 500 (.failure 500 "网络繁忙，请稍后再试")

end Problem
end Http
end AccountAccess
