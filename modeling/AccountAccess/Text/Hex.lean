/-!
# Hexadecimal

Each byte is written as two lower-case digits, the high half first.  Reading
accepts either letter case and refuses an odd number of digits and anything that
is not a digit.
-/

namespace AccountAccess
namespace Text

/-- The lower-case hexadecimal digit of a number below sixteen. -/
def hexDigit (n : Nat) : Char :=
  n.digitChar

/-- The value of a hexadecimal digit in either letter case. -/
def hexValue? (c : Char) : Option Nat :=
  if '0' ≤ c ∧ c ≤ '9' then some (c.toNat - '0'.toNat)
  else if 'a' ≤ c ∧ c ≤ 'f' then some (c.toNat - 'a'.toNat + 10)
  else if 'A' ≤ c ∧ c ≤ 'F' then some (c.toNat - 'A'.toNat + 10)
  else none

/-- The two digits of each byte. -/
def hexChars : List UInt8 → List Char
  | [] => []
  | b :: bs => hexDigit (b.toNat / 16) :: hexDigit (b.toNat % 16) :: hexChars bs

/-- The bytes that a text of hexadecimal digits stands for. -/
def bytesOfHex? : List Char → Option (List UInt8)
  | [] => some []
  | [_] => none
  | high :: low :: cs => do
    let h ← hexValue? high
    let l ← hexValue? low
    let bs ← bytesOfHex? cs
    return UInt8.ofNat (16 * h + l) :: bs

/-- `hexChars` as a string. -/
def hex (bs : List UInt8) : String :=
  String.ofList (hexChars bs)

end Text
end AccountAccess
