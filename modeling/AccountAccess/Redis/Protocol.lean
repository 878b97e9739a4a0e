import AccountAccess.Cache.Call
import AccountAccess.Dialogue
import AccountAccess.Text.Bytes
import AccountAccess.Text.Integer

/-!
# Commands and replies of a Redis server

A command is a list of words.  Several commands can be sent as a transaction,
which is answered with one reply.  A reply is read as the type that is asked for;
an error reply, also one inside a list, a reply of another type and one that is
nested too deep are faults.
-/

namespace AccountAccess
namespace Redis

/-- A reply of the server. -/
inductive Reply where
  | nil
  | integer (value : Int64)
  /-- A text of any bytes. -/
  | bulk (bytes : List UInt8)
  /-- A short text on one line. -/
  | status (text : String)
  | error (text : String)
  | array (items : List Reply)
  deriving Inhabited

/-- A command. -/
abbrev Command := List String

/-- What is asked of the server. -/
inductive Request where
  | connect
  | command (command : Command)
  | transaction (commands : List Command)

/-- What a request is answered with. -/
abbrev Request.Answer : Request → Type
  | connect => Except CacheError Unit
  | command _ | transaction _ => Except CacheError Reply

/-- The interface of a server. -/
abbrev interface : Interface :=
  ⟨Request, Request.Answer⟩

/-- An exchange with a server. -/
abbrev Exchange (α : Type) := Dialogue interface α

namespace Reply

mutual

/-- Whether a reply is an error or has one inside. -/
def hasError : Reply → Bool
  | error _ => true
  | array items => anyHasError items
  | _ => false

/-- Whether any of some replies is an error or has one inside. -/
def anyHasError : List Reply → Bool
  | [] => false
  | item :: items => item.hasError || anyHasError items

end

mutual

/-- How many replies stand inside one another, the reply itself included. -/
def height : Reply → Nat
  | array items => greatestHeight items + 1
  | _ => 1

/-- The greatest height of some replies. -/
def greatestHeight : List Reply → Nat
  | [] => 0
  | item :: items => max item.height (greatestHeight items)

end

/-- The greatest height of a reply that is read. -/
def heightLimit : Nat := 100

/-- A text; integers count as their digits. -/
def text? : Reply → Option String
  | integer value => some (Text.decimal value)
  | bulk bytes => Text.ofBytes? bytes
  | status text => some text
  | _ => none

/-- A text that may be missing. -/
def optionalText? : Reply → Option (Option String)
  | nil => some none
  | reply => reply.text?.map some

/-- An integer, as a number or as text. -/
def integer? : Reply → Option Int64
  | integer value => some value
  | bulk bytes => (Text.ofBytes? bytes).bind Text.readInt64?
  | status text => Text.readInt64? text
  | _ => none

/-- A truth value: a number that is not zero, the texts `1` and `0`, the status
`OK`; nothing counts as false. -/
def flag? : Reply → Option Bool
  | nil => some false
  | integer value => some (value != 0)
  | bulk bytes =>
    if bytes = Text.toBytes "1" then some true
    else if bytes = Text.toBytes "0" then some false
    else none
  | status text =>
    if text = "1" ∨ text = "OK" then some true else if text = "0" then some false else none
  | _ => none

/-- A list of truth values; nothing counts as an empty list and a text as a list
of one. -/
def flags? : Reply → Option (List Bool)
  | nil => some []
  | array items => items.mapM flag?
  | bulk bytes => (bulk bytes).flag?.map ([·])
  | _ => none

end Reply
end Redis
end AccountAccess
