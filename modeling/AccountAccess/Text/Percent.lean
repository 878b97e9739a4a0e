import AccountAccess.Text.Bytes
import AccountAccess.Text.Hex

/-!
# Percent-encoding

A percent sign and two hexadecimal digits stand for one byte.  A percent sign
that two digits do not follow stands for itself.
-/

namespace AccountAccess
namespace Text

/-- The value of a byte read as a hexadecimal digit. -/
def hexByte? (b : UInt8) : Option Nat :=
  hexValue? (Char.ofNat b.toNat)

/-- The bytes that a percent-encoded sequence stands for. -/
def percentDecode : List UInt8 → List UInt8
  | b :: high :: low :: rest =>
    match (if b = 0x25 then hexByte? high else none), hexByte? low with
    | some h, some l => UInt8.ofNat (16 * h + l) :: percentDecode rest
    | _, _ => b :: percentDecode (high :: low :: rest)
  | bs => bs

/-- The text that a percent-encoded text stands for, if its bytes are UTF-8. -/
def percentDecode? (s : String) : Option String :=
  ofBytes? (percentDecode (toBytes s))

end Text
end AccountAccess
