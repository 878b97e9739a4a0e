/-!
# The range of double precision

A number is written as digits, perhaps with a point among them, and perhaps an
exponent.  Whether it is in the range of double precision is judged on an
approximation: only as many leading digits count as fit 64 bits, and those digits,
the power of ten that scales them and the product of the two are each rounded to
the nearest double.  Close to the largest double this is stricter or more lenient
than rounding the exact value once.
-/

namespace AccountAccess
namespace Json

/-- A number of which only the digits that fit 64 bits are kept:
`significand · 10 ^ exponent`. -/
structure Magnitude where
  significand : Nat := 0
  exponent : Int := 0
  /-- Whether a digit has been left out since the last point. -/
  isFull : Bool := false
  deriving DecidableEq, Repr

namespace Magnitude

/-- The significand with one more digit, unless digits are being left out or
64 bits do not hold it. -/
def extended? (m : Magnitude) (digit : Nat) : Option Nat :=
  if m.isFull ∨ Nat.pow 2 64 ≤ 10 * m.significand + digit then none
  else some (10 * m.significand + digit)

/-- Takes a digit before the point; a digit left out counts as a zero. -/
def pushWhole (m : Magnitude) (digit : Nat) : Magnitude :=
  match m.extended? digit with
  | some significand => { m with significand }
  | none => { m with exponent := m.exponent + 1, isFull := true }

/-- Takes a digit behind the point. -/
def pushDecimal (m : Magnitude) (digit : Nat) : Magnitude :=
  match m.extended? digit with
  | some significand => { m with significand, exponent := m.exponent - 1 }
  | none => { m with isFull := true }

/-- The number with given digits before and behind the point and an exponent.
Leaving digits out starts afresh at the point. -/
def ofDigits (whole decimals : List Nat) (exponent : Int) : Magnitude :=
  let front := whole.foldl pushWhole {}
  let all := decimals.foldl pushDecimal { front with isFull := false }
  { all with exponent := all.exponent + exponent }

end Magnitude

/-- The nearest number with 53 significant bits; of two the one whose last bit is
zero. -/
def nearestDouble (n : Nat) : Nat :=
  let unit := Nat.pow 2 (n.log2 + 1 - 53)
  let quotient := n / unit
  let remainder := n % unit
  if unit < 2 * remainder ∨ (unit = 2 * remainder ∧ quotient % 2 = 1) then
    (quotient + 1) * unit
  else quotient * unit

/-- Whether a number is beyond the largest double.  A power of ten of more than 308
places is beyond it already. -/
def Magnitude.isBeyondDouble (m : Magnitude) : Bool :=
  if m.significand = 0 ∨ m.exponent < 0 then false
  else if 308 < m.exponent then true
  else
    Nat.pow 2 1024 ≤
      nearestDouble (nearestDouble m.significand * nearestDouble (Nat.pow 10 m.exponent.toNat))

end Json
end AccountAccess
