import AccountAccess.Text.Blank
import AccountAccess.Text.Bytes
import AccountAccess.Text.Hex
import AccountAccess.Text.Integer

/-!
# Signatures of partners

A partner signs its name and a time in seconds, joined by an ampersand.  The
signature is written in hexadecimal.
-/

namespace AccountAccess
namespace Partner

/-- The text that is signed. -/
def payload (partner : String) (timestamp : Int64) : String :=
  partner ++ "&" ++ Text.decimal timestamp

/-- The written signature of a payload under a secret. -/
def signature (sign : List UInt8 → List UInt8 → List UInt8) (secret payload : String) : String :=
  Text.hex (sign (Text.toBytes secret) (Text.toBytes payload))

/-- Whether a text is the signature of a payload, in any letter case and with
blanks around it. -/
def hasSignature (sign : List UInt8 → List UInt8 → List UInt8) (secret payload text : String) :
    Bool :=
  Text.bytesOfHex? (Text.trim text).toList ==
    some (sign (Text.toBytes secret) (Text.toBytes payload))

end Partner
end AccountAccess
