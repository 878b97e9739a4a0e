/-!
# Integers in decimal

Reading takes an optional sign and at least one ASCII digit, and nothing else:
no blanks, no separators, no digits of other scripts.  Leading zeros and a plus
sign are fine.  A value outside the asked range is refused.  Writing gives the
canonical form: no plus sign, no leading zeros.
-/

namespace AccountAccess
namespace Text

/-- The value of a run of ASCII digits, most significant first; an empty run and
a run with any other character have none. -/
def naturalOfDigits? (cs : List Char) : Option Nat :=
  if cs ≠ [] ∧ cs.all Char.isDigit then some (Nat.ofDigitChars 10 cs 0) else none

/-- A natural number with an optional plus sign. -/
def readNatural? : List Char → Option Nat
  | '+' :: cs => naturalOfDigits? cs
  | cs => naturalOfDigits? cs

/-- An integer with an optional sign. -/
def readInteger? : List Char → Option Int
  | '-' :: cs => (naturalOfDigits? cs).map fun n => -(n : Int)
  | cs => (readNatural? cs).map Int.ofNat

/-- A signed 64-bit integer: an integer that lies in range. -/
def readInt64? (s : String) : Option Int64 :=
  (readInteger? s.toList).bind fun i =>
    if Int64.minValue.toInt ≤ i ∧ i ≤ Int64.maxValue.toInt then some (Int64.ofInt i) else none

/-- A natural number below a bound; a minus sign is refused, even before zero. -/
def readBelow? (bound : Nat) (s : String) : Option Nat :=
  (readNatural? s.toList).filter (· < bound)

/-- The canonical decimal form of an integer. -/
def decimalChars (i : Int) : List Char :=
  if i < 0 then '-' :: Nat.toDigits 10 i.natAbs else Nat.toDigits 10 i.natAbs

/-- The canonical decimal form of a signed 64-bit integer. -/
def decimal (i : Int64) : String :=
  String.ofList (decimalChars i.toInt)

/-- The canonical decimal form of a natural number. -/
def decimalNat (n : Nat) : String :=
  String.ofList (Nat.toDigits 10 n)

@[simp] theorem toList_decimal (i : Int64) : (decimal i).toList = decimalChars i.toInt := by
  simp [decimal]

end Text
end AccountAccess
