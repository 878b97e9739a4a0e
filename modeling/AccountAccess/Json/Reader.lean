import AccountAccess.Json.Magnitude
import AccountAccess.Text.Bytes
import AccountAccess.Text.Hex

/-!
# Reading JSON text

The text is read once, from left to right, straight into the type that is asked
for, and the first fault ends the reading.  There are two faults: the text is
*malformed* when it is not JSON, and *unsuitable* when it is JSON so far but the
value in sight is not of the asked type.  Since a value is judged at its first
character, an unsuitable value hides whatever is malformed after it.

A value that nobody asked for is skipped: its brackets, numbers and escapes are
checked, the bytes inside its strings are not.
-/

namespace AccountAccess
namespace Json

/-- Why a text cannot be read. -/
inductive Fault where
  | malformed
  | unsuitable
  deriving DecidableEq, Repr

/-- Reads a value off the front of a text. -/
abbrev Reader (α : Type) := StateT (List UInt8) (Except Fault) α

/-- Gives up. -/
def fail (fault : Fault) : Reader α :=
  fun _ => .error fault

/-! ## Bytes -/

/-- Blanks between tokens: space, tab, line feed and carriage return. -/
def isSpace (b : UInt8) : Bool :=
  b == 0x20 || b == 0x09 || b == 0x0A || b == 0x0D

/-- Whether a byte is an ASCII digit. -/
def isDigit (b : UInt8) : Bool :=
  0x30 ≤ b && b ≤ 0x39

/-- Skips blanks and shows the byte after them; at the end of the text there is
none, which is malformed. -/
def peek : Reader UInt8 := fun input =>
  match input.dropWhile isSpace with
  | [] => .error .malformed
  | b :: rest => .ok (b, b :: rest)

/-- Takes the byte in front. -/
def advance : Reader Unit := fun input => .ok ((), input.drop 1)

/-- Takes a given sequence of bytes. -/
def expect (word : List UInt8) : Reader Unit := fun input =>
  if word.isPrefixOf input then .ok ((), input.drop word.length) else .error .malformed

/-- Takes a given mark after blanks. -/
def mark (b : UInt8) : Reader Unit := do
  if (← peek) = b then advance else fail .malformed

/-- Nothing but blanks may be left. -/
def finish : Reader Unit := fun input =>
  if input.all isSpace then .ok ((), []) else .error .malformed

/-! ## Strings -/

/-- The byte that a one-letter escape stands for. -/
def shortEscape? (b : UInt8) : Option UInt8 :=
  if b = 0x22 ∨ b = 0x5C ∨ b = 0x2F then some b
  else if b = 0x62 then some 0x08
  else if b = 0x66 then some 0x0C
  else if b = 0x6E then some 0x0A
  else if b = 0x72 then some 0x0D
  else if b = 0x74 then some 0x09
  else none

/-- The number that four hexadecimal digits stand for. -/
def fourHex? (bs : List UInt8) : Option Nat :=
  bs.foldl (fun n b => do return 16 * (← n) + (← Text.hexValue? (Char.ofNat b.toNat))) (some 0)

/-- Whether a number is the first half of a surrogate pair. -/
def isHighSurrogate (n : Nat) : Bool :=
  0xD800 ≤ n && n ≤ 0xDBFF

/-- Whether a number is the second half of a surrogate pair. -/
def isLowSurrogate (n : Nat) : Bool :=
  0xDC00 ≤ n && n ≤ 0xDFFF

/-- The UTF-8 form of a code point, last byte first. -/
def reversedUtf8 (n : Nat) : List UInt8 :=
  (Text.toBytes (String.singleton (Char.ofNat n))).reverse

/-- The bytes of a string up to its closing quote, with escapes resolved; `acc`
holds those already read, last byte first.  Control characters and halves of
surrogate pairs are malformed. -/
def stringBytes (acc : List UInt8) : List UInt8 → Except Fault (List UInt8 × List UInt8)
  | [] => .error .malformed
  | b :: rest =>
    if b = 0x22 then .ok (acc.reverse, rest)
    else if b = 0x5C then
      match rest with
      | [] => .error .malformed
      | e :: rest =>
        if e = 0x75 then
          match rest with
          | a₁ :: a₂ :: a₃ :: a₄ :: rest =>
            match fourHex? [a₁, a₂, a₃, a₄] with
            | none => .error .malformed
            | some high =>
              if isLowSurrogate high then .error .malformed
              else if isHighSurrogate high then
                match rest with
                | p :: u :: b₁ :: b₂ :: b₃ :: b₄ :: rest =>
                  if p = 0x5C ∧ u = 0x75 then
                    match fourHex? [b₁, b₂, b₃, b₄] with
                    | none => .error .malformed
                    | some low =>
                      if isLowSurrogate low then
                        let n := 0x10000 + (high - 0xD800) * 0x400 + (low - 0xDC00)
                        stringBytes (reversedUtf8 n ++ acc) rest
                      else .error .malformed
                  else .error .malformed
                | _ => .error .malformed
              else stringBytes (reversedUtf8 high ++ acc) rest
          | _ => .error .malformed
        else
          match shortEscape? e with
          | some c => stringBytes (c :: acc) rest
          | none => .error .malformed
    else if b < 0x20 then .error .malformed
    else stringBytes (b :: acc) rest

/-- A string whose opening quote has been taken. -/
def stringBody : Reader String := fun input => do
  let (bytes, rest) ← stringBytes [] input
  match Text.ofBytes? bytes with
  | some s => .ok (s, rest)
  | none => .error .malformed

/-! ## Numbers -/

/-- A number as far as the service tells numbers apart. -/
inductive Number where
  /-- A whole number of at most 64 bits. -/
  | whole (value : Int)
  /-- Any other number in the range of double precision. -/
  | real

/-- The values of digits. -/
def digitValues (digits : List UInt8) : List Nat :=
  digits.map fun b => b.toNat - 0x30

/-- The number that a run of digits stands for. -/
def naturalOf (digits : List UInt8) : Nat :=
  (digitValues digits).foldl (fun n d => 10 * n + d) 0

/-- The digits from the first one that is not zero. -/
def significant (digits : List UInt8) : List UInt8 :=
  digits.dropWhile (· == 0x30)

/-- The size of an exponent.  No text is long enough to make up for an exponent of
more than nine digits, so that all of those count alike. -/
def exponentSize (digits : List UInt8) : Nat :=
  if 9 < (significant digits).length then Nat.pow 10 9 else naturalOf digits

/-- The digits in front. -/
def takeDigits : Reader (List UInt8) := fun input =>
  .ok (input.span isDigit)

/-- Takes the byte in front if it is one of the given ones. -/
def takeIf (p : UInt8 → Bool) : Reader (Option UInt8) := fun input =>
  match input with
  | b :: rest => if p b then .ok (some b, rest) else .ok (none, input)
  | [] => .ok (none, input)

/-- At least one digit. -/
def someDigits : Reader (List UInt8) := do
  let digits ← takeDigits
  if digits = [] then fail .malformed else return digits

/-- The digits before the point: no leading zero. -/
def wholeDigits : Reader (List UInt8) := do
  let digits ← someDigits
  if digits.length > 1 ∧ digits.head? = some 0x30 then fail .malformed else return digits

/-- The digits after the point and the exponent, each if present. -/
def fractionAndExponent : Reader (Option (List UInt8) × Option Int) := do
  let fraction ← match ← takeIf (· == 0x2E) with
    | some _ => some <$> someDigits
    | none => pure none
  let exponent ← match ← takeIf (fun b => b == 0x65 || b == 0x45) with
    | some _ => do
      let sign ← takeIf (fun b => b == 0x2B || b == 0x2D)
      let digits ← someDigits
      let size := exponentSize digits
      pure (some (if sign = some 0x2D then -(size : Int) else size))
    | none => pure none
  return (fraction, exponent)

/-- A number whose first byte is in front.  Whole numbers that 64 bits do not
hold, and minus zero, count as real; a number beyond double precision is
malformed. -/
def number : Reader Number := do
  let negative := (← takeIf (· == 0x2D)).isSome
  let digits ← wholeDigits
  let (fraction, exponent) ← fractionAndExponent
  if fraction.isNone ∧ exponent.isNone ∧ digits.length ≤ 20 then
    let value := naturalOf digits
    let limit := if negative then Nat.pow 2 63 else Nat.pow 2 64 - 1
    if value ≤ limit ∧ ¬(negative ∧ value = 0) then
      return .whole (if negative then -(value : Int) else value)
  let magnitude :=
    Magnitude.ofDigits (digitValues digits) (digitValues (fraction.getD [])) (exponent.getD 0)
  if magnitude.isBeyondDouble then fail .malformed
  return .real

/-! ## Values of an unasked type -/

/-- Reads just enough of an unsuitable value to say so: brackets at once, words,
numbers and strings after their last byte. -/
def unsuitable : Reader α := do
  let b ← peek
  if b = 0x6E then expect [0x6E, 0x75, 0x6C, 0x6C]
  else if b = 0x74 then expect [0x74, 0x72, 0x75, 0x65]
  else if b = 0x66 then expect [0x66, 0x61, 0x6C, 0x73, 0x65]
  else if b = 0x2D ∨ isDigit b then discard number
  else if b = 0x22 then advance *> discard stringBody
  else if b ≠ 0x5B ∧ b ≠ 0x7B then fail .malformed
  fail .unsuitable

/-- The rest of a string that nobody reads, up to its closing quote. -/
def skipString : List UInt8 → Except Fault (List UInt8)
  | [] => .error .malformed
  | b :: rest =>
    if b = 0x22 then .ok rest
    else if b = 0x5C then
      match rest with
      | [] => .error .malformed
      | e :: rest =>
        if e = 0x75 then
          match rest with
          | a₁ :: a₂ :: a₃ :: a₄ :: rest =>
            if (fourHex? [a₁, a₂, a₃, a₄]).isSome then skipString rest else .error .malformed
          | _ => .error .malformed
        else if (shortEscape? e).isSome then skipString rest
        else .error .malformed
    else if b < 0x20 then .error .malformed
    else skipString rest

/-- What an array or an object that is being skipped waits for. -/
inductive Pending where
  /-- A value. -/
  | value
  /-- A value, or the end of an array that has no items yet. -/
  | firstItem
  /-- A field name, or the end of an object that has no fields yet. -/
  | firstField
  /-- A field name. -/
  | field
  /-- A comma, or the end of the innermost bracket. -/
  | separator

/-- Skips one value.  `nesting` lists the brackets that are open, innermost first:
`true` for an object.  Of two rounds in a row at least one takes a byte, so twice
the number of bytes bounds the rounds. -/
def skipRounds : Nat → List Bool → Pending → Reader Unit
  | 0, _, _ => fail .malformed
  | rounds + 1, nesting, pending => do
    match pending with
    | .separator =>
      match nesting with
      | [] => return
      | isObject :: outer =>
        let b ← peek
        if b = 0x2C then
          advance
          skipRounds rounds nesting (if isObject then .field else .value)
        else if b = (if isObject then 0x7D else 0x5D) then
          advance
          skipRounds rounds outer .separator
        else fail .malformed
    | .firstItem =>
      if (← peek) = 0x5D then
        advance
        skipRounds rounds (nesting.drop 1) .separator
      else skipRounds rounds nesting .value
    | .firstField =>
      if (← peek) = 0x7D then
        advance
        skipRounds rounds (nesting.drop 1) .separator
      else skipRounds rounds nesting .field
    | .field =>
      mark 0x22
      let rest ← skipString (← get)
      set rest
      mark 0x3A
      skipRounds rounds nesting .value
    | .value =>
      let b ← peek
      if b = 0x5B then
        advance
        skipRounds rounds (false :: nesting) .firstItem
      else if b = 0x7B then
        advance
        skipRounds rounds (true :: nesting) .firstField
      else
        if b = 0x6E then expect [0x6E, 0x75, 0x6C, 0x6C]
        else if b = 0x74 then expect [0x74, 0x72, 0x75, 0x65]
        else if b = 0x66 then expect [0x66, 0x61, 0x6C, 0x73, 0x65]
        else if b = 0x22 then
          advance
          let rest ← skipString (← get)
          set rest
        else
          discard (takeIf (· == 0x2D))
          discard wholeDigits
          discard fractionAndExponent
        skipRounds rounds nesting .separator

/-- Skips one value of any type and any depth. -/
def skipValue : Reader Unit := do
  let input ← get
  skipRounds (2 * input.length + 2) [] .value

end Json
end AccountAccess
