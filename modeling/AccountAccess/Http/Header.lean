import AccountAccess.Text.Blank
import AccountAccess.Text.Bytes

/-!
# Header fields

A request carries header fields in order; names are compared without regard to
ASCII case, and of several fields of one name the first counts.  A value is a
sequence of bytes.  It is *readable* when all of them are visible ASCII
characters, spaces or tabs.
-/

namespace AccountAccess
namespace Http

/-- Header fields, in order. -/
abbrev Headers := List (String × List UInt8)

/-- A name in small letters. -/
def lowerCase (name : String) : String :=
  String.ofList (name.toList.map Char.toLower)

namespace Headers

/-- The value of the first field of a name, given in small letters. -/
def first? (headers : Headers) (name : String) : Option (List UInt8) :=
  (headers.find? fun field => lowerCase field.1 == name).map Prod.snd

/-- The text of the first field of a name, if it is readable. -/
def readable? (headers : Headers) (name : String) : Option String :=
  (headers.first? name).bind Text.visible?

/-- The trimmed text of the first field of a name, if it is readable and not
blank. -/
def trimmed? (headers : Headers) (name : String) : Option String :=
  ((headers.readable? name).map Text.trim).filter (· != "")

end Headers
end Http
end AccountAccess
