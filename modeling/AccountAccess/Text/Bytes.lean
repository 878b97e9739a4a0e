/-!
# Text as bytes

Texts travel as UTF-8.  A byte sequence that is not UTF-8 stands for no text.
-/

namespace AccountAccess
namespace Text

/-- The UTF-8 form of a text. -/
def toBytes (s : String) : List UInt8 :=
  s.toUTF8.toList

/-- The text with a given UTF-8 form. -/
def ofBytes? (bs : List UInt8) : Option String :=
  String.fromUTF8? ⟨bs.toArray⟩

/-- The bytes of a line of visible characters, blanks and tabs, one character
each; any other byte makes the line unreadable. -/
def visible? (bs : List UInt8) : Option String :=
  if bs.all fun b => (0x20 ≤ b && b ≤ 0x7E) || b == 9 then
    some (String.ofList (bs.map fun b => Char.ofNat b.toNat))
  else
    none

end Text
end AccountAccess
