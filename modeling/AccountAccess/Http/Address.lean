import AccountAccess.Text.Hex
import AccountAccess.Text.Integer
import AccountAccess.Text.Split

/-!
# Network addresses

An address is written in its canonical form, so that one machine has one text: a
four-part address as four numbers, an eight-part address in small hexadecimal
digits without leading zeros, with its longest run of two or more zero parts
replaced by two colons.  An eight-part address that stands for a four-part one
shows it.
-/

namespace AccountAccess
namespace Http

/-- A network address: four bytes or eight parts of sixteen bits. -/
inductive Address where
  | four (a b c d : Nat)
  | eight (parts : List Nat)
  deriving DecidableEq, Repr

namespace Address

/-! ## Writing -/

/-- Four numbers with points. -/
def renderFour (a b c d : Nat) : String :=
  ".".intercalate ([a, b, c, d].map Text.decimalNat)

/-- Parts in hexadecimal with colons. -/
def renderParts (parts : List Nat) : String :=
  ":".intercalate (parts.map fun n => String.ofList (Nat.toDigits 16 n))

/-- The number of zeros in front. -/
def zerosInFront (parts : List Nat) : Nat :=
  (parts.takeWhile (· == 0)).length

/-- The position and the length of the first of the longest runs of zeros. -/
def longestZeros (parts : List Nat) : Nat × Nat :=
  (List.range parts.length).foldl (fun best i =>
    let run := zerosInFront (parts.drop i)
    if run > best.2 then (i, run) else best) (0, 0)

/-- The canonical form. -/
def render : Address → String
  | four a b c d => renderFour a b c d
  | eight parts =>
    match parts with
    | [0, 0, 0, 0, 0, 0xFFFF, high, low] =>
      "::ffff:" ++ renderFour (high / 256) (high % 256) (low / 256) (low % 256)
    | _ =>
      let (start, run) := longestZeros parts
      if run ≤ 1 then renderParts parts
      else renderParts (parts.take start) ++ "::" ++ renderParts (parts.drop (start + run))

/-! ## Reading -/

/-- A number of one to three digits without leading zeros, at most 255. -/
def readByte? (s : String) : Option Nat :=
  let cs := s.toList
  if cs.length ≤ 3 ∧ cs.all Char.isDigit ∧ (cs.length = 1 ∨ cs.head? ≠ some '0') then
    (Text.naturalOfDigits? cs).filter (· ≤ 255)
  else none

/-- Four numbers with points. -/
def readFour? (s : String) : Option (Nat × Nat × Nat × Nat) :=
  match (Text.pieces '.' s).map readByte? with
  | [some a, some b, some c, some d] => some (a, b, c, d)
  | _ => none

/-- A part of one to four hexadecimal digits. -/
def readPart? (s : String) : Option Nat :=
  let cs := s.toList
  if cs = [] ∨ 4 < cs.length then none
  else cs.foldl (fun n c => do return 16 * (← n) + (← Text.hexValue? c)) (some 0)

/-- Parts with colons; the last may be four numbers with points, which make two
parts. -/
def readParts? : List String → Option (List Nat)
  | [] => some []
  | [last] =>
    match readFour? last with
    | some (a, b, c, d) => some [256 * a + b, 256 * c + d]
    | none => (readPart? last).map ([·])
  | part :: parts => do return (← readPart? part) :: (← readParts? parts)

/-- Parts with colons, none for the empty text. -/
def readSide? (s : String) : Option (List Nat) :=
  if s = "" then some [] else readParts? (Text.pieces ':' s)

/-- The text before and after the first pair of colons. -/
def splitDouble (front : List Char) : List Char → Option (String × String)
  | ':' :: ':' :: rest => some (String.ofList front.reverse, String.ofList rest)
  | c :: rest => splitDouble (c :: front) rest
  | [] => none

/-- Eight parts, with at most one gap. -/
def readEight? (s : String) : Option Address :=
  match splitDouble [] s.toList with
  | none => (readSide? s).bind fun parts =>
      if parts.length = 8 then some (eight parts) else none
  | some (front, back) => do
    let front ← readSide? front
    let back ← readSide? back
    if front.length + back.length ≤ 7 then
      some (eight (front ++ List.replicate (8 - front.length - back.length) 0 ++ back))
    else none

/-- Digits of a number with leading zeros allowed, at most a bound. -/
def isNumberTo (greatest : Nat) (cs : List Char) : Bool :=
  (Text.naturalOfDigits? cs).any (· ≤ greatest)

/-- Whether a text is a colon and a port. -/
def isPort : List Char → Bool
  | ':' :: digits => isNumberTo 65535 digits
  | _ => false

/-- An address of eight parts, perhaps with a percent sign and the number of a
scope, which tells networks of one machine apart and is not kept. -/
def readScoped? (cs : List Char) : Option Address :=
  match Text.splitFirst '%' cs with
  | none => readEight? (String.ofList cs)
  | some (address, scope) =>
    if isNumberTo 4294967295 scope then readEight? (String.ofList address) else none

/-- The address in an address with a port: `1.2.3.4:80` or `[::1]:80`. -/
def ofEndpoint? (s : String) : Option Address :=
  match s.toList with
  | '[' :: cs => do
    let (address, port) ← Text.splitFirst ']' cs
    if isPort port then readScoped? address else none
  | cs => do
    let (address, port) ← Text.splitFirst ':' cs
    let (a, b, c, d) ← readFour? (String.ofList address)
    if isNumberTo 65535 port then some (four a b c d) else none

end Address
end Http
end AccountAccess
