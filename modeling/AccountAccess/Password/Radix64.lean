import AccountAccess.Text.Integer

/-!
# Bytes in 64 characters

Three bytes are written as four characters of six bits each.  One or two bytes at
the end take two or three characters; the bits left over in the last one are
zero, and no padding follows.
-/

namespace AccountAccess
namespace Password

/-- The characters, by the six bits they stand for. -/
def radixAlphabet : List Char :=
  "./ABCDEFGHIJKLMNOPQRSTUVWXYZabcdefghijklmnopqrstuvwxyz0123456789".toList

/-- The character for six bits. -/
def radixChar (n : Nat) : Char :=
  radixAlphabet.getD n '.'

/-- The characters for some bytes. -/
def radixEncode : List UInt8 → List Char
  | [] => []
  | [a] =>
    let n := a.toNat * 16
    [radixChar (n / 64), radixChar (n % 64)]
  | [a, b] =>
    let n := (a.toNat * 256 + b.toNat) * 4
    [radixChar (n / 4096), radixChar (n / 64 % 64), radixChar (n % 64)]
  | a :: b :: c :: rest =>
    let n := (a.toNat * 256 + b.toNat) * 256 + c.toNat
    radixChar (n / 262144) :: radixChar (n / 4096 % 64) :: radixChar (n / 64 % 64) ::
      radixChar (n % 64) :: radixEncode rest

/-- Why bytes cannot be read.  Positions count bytes of the text from zero. -/
inductive RadixFault where
  /-- A byte that is no character of the alphabet. -/
  | invalidByte (position : Nat) (byte : UInt8)
  /-- A single character at the end. -/
  | invalidLength (length : Nat)
  /-- Bits left over that are not zero. -/
  | invalidLast (position : Nat) (byte : UInt8)
  /-- An equals sign at the end. -/
  | padded
  deriving DecidableEq, Repr

/-- The message for a fault. -/
def RadixFault.message : RadixFault → String
  | invalidByte position byte => "Invalid symbol " ++ located byte position
  | invalidLength length => "Invalid input length: " ++ Text.decimalNat length
  | invalidLast position byte => "Invalid last symbol " ++ located byte position
  | padded => "Invalid padding"
where
  /-- A byte and its position. -/
  located (byte : UInt8) (position : Nat) : String :=
    Text.decimalNat byte.toNat ++ ", offset " ++ Text.decimalNat position ++ "."

/-- The six bits that a byte stands for. -/
def radixValue (position : Nat) (byte : UInt8) : Except RadixFault Nat :=
  match radixAlphabet.findIdx? (·.toNat == byte.toNat) with
  | some n => .ok n
  | none => .error (.invalidByte position byte)

/-- The byte of an equals sign. -/
def radixPadding : UInt8 := 0x3D

/-- Reads the last one to four bytes.  Equals signs are refused, as padding where
padding could stand, behind two characters and with nothing after it. -/
def radixDecodeEnd (position : Nat) (last : List UInt8) : Except RadixFault (List UInt8) := do
  let front := last.takeWhile (· != radixPadding)
  let values ← front.zipIdx.mapM fun (b, i) => radixValue (position + i) b
  if front.length < last.length then
    if front.length < 2 ∨ (last.drop front.length).any (· != radixPadding) then
      throw (.invalidByte (position + front.length) radixPadding)
    throw .padded
  if front.length < 2 then
    throw (.invalidLength (position + front.length))
  let bits := 6 * front.length
  let spare := bits % 8
  let n := values.foldl (fun n v => 64 * n + v) 0
  if n % Nat.pow 2 spare ≠ 0 then
    throw (.invalidLast (position + front.length - 1) (front.getLastD 0))
  let whole := n / Nat.pow 2 spare
  return (List.range (bits / 8)).map fun i => UInt8.ofNat (whole >>> (8 * (bits / 8 - 1 - i)))

/-- Reads bytes from their characters, in UTF-8. -/
def radixDecodeFrom (position : Nat) : List UInt8 → Except RadixFault (List UInt8)
  | [] => .ok []
  | a :: b :: c :: d :: e :: rest => do
    let a ← radixValue position a
    let b ← radixValue (position + 1) b
    let c ← radixValue (position + 2) c
    let d ← radixValue (position + 3) d
    let n := ((a * 64 + b) * 64 + c) * 64 + d
    let tail ← radixDecodeFrom (position + 4) (e :: rest)
    return UInt8.ofNat (n / 65536) :: UInt8.ofNat (n / 256) :: UInt8.ofNat n :: tail
  | last => radixDecodeEnd position last

/-- Reads bytes from their characters. -/
def radixDecode (bytes : List UInt8) : Except RadixFault (List UInt8) :=
  radixDecodeFrom 0 bytes

end Password
end AccountAccess
