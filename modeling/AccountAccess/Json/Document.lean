import AccountAccess.Text.Integer

/-!
# JSON documents and their text

A document is a tree of values; objects keep their fields in the order in which
they were built, and the text shows that order.  The text has no blanks between
tokens.  Inside a string the quote, the backslash and the control characters
below the space are escaped, the five that have a short form by it; every other
character stands for itself.
-/

namespace AccountAccess
namespace Json

/-- A JSON value.  The service writes whole numbers only. -/
inductive Document where
  | null
  | bool (value : Bool)
  | number (value : Int)
  | text (value : String)
  | array (items : List Document)
  | object (fields : List (String × Document))
  deriving Inhabited

/-- One character of a string. -/
def escapeChar (c : Char) : List Char :=
  if c = '"' then ['\\', '"']
  else if c = '\\' then ['\\', '\\']
  else if c = '\n' then ['\\', 'n']
  else if c = '\r' then ['\\', 'r']
  else if c = '\t' then ['\\', 't']
  else if c.toNat = 8 then ['\\', 'b']
  else if c.toNat = 12 then ['\\', 'f']
  else if c.toNat < 32 then
    ['\\', 'u', '0', '0', (c.toNat / 16).digitChar, (c.toNat % 16).digitChar]
  else [c]

/-- A string in quotes. -/
def quoteChars (s : String) : List Char :=
  '"' :: s.toList.flatMap escapeChar ++ ['"']

namespace Document

mutual

/-- The characters of a document's text. -/
def chars : Document → List Char
  | null => "null".toList
  | bool true => "true".toList
  | bool false => "false".toList
  | number i => Text.decimalChars i
  | text s => quoteChars s
  | array items => '[' :: itemChars items
  | object fields => '{' :: fieldChars fields

/-- The items of an array, with the closing bracket. -/
def itemChars : List Document → List Char
  | [] => [']']
  | [item] => chars item ++ [']']
  | item :: items => chars item ++ ',' :: itemChars items

/-- The fields of an object, with the closing brace. -/
def fieldChars : List (String × Document) → List Char
  | [] => ['}']
  | [(name, value)] => quoteChars name ++ ':' :: chars value ++ ['}']
  | (name, value) :: fields => quoteChars name ++ ':' :: chars value ++ ',' :: fieldChars fields

end

/-- The text of a document. -/
def render (document : Document) : String :=
  String.ofList document.chars

/-- A value that may be missing. -/
def optional (write : α → Document) : Option α → Document
  | none => null
  | some value => write value

/-- A signed 64-bit integer. -/
def int64 (value : Int64) : Document :=
  number value.toInt

end Document
end Json
end AccountAccess
