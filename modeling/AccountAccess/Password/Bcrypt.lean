import AccountAccess.Password.Blowfish
import AccountAccess.Password.Radix64
import AccountAccess.Text.Bytes
import AccountAccess.Text.Integer
import AccountAccess.Text.Split

/-!
# Bcrypt password hashes

A hash is written `$2b$`, a cost in two digits, `$`, and 53 characters: 22 for a
salt of 16 bytes and 31 for the first 23 bytes of the result.  The result is a
fixed text encrypted with Blowfish, whose state has been expanded with password
and salt `2 ^ cost` times over.  Of a password and the zero byte after it only
the first 72 bytes count.

Reading a hash is lenient about dollar signs, which need only separate three
parts, and about the cost, which may have a sign or fewer digits.  Four versions
are read, and all four mean the same.
-/

namespace AccountAccess
namespace Password

/-- Why a hash cannot be used. -/
inductive HashFault where
  | invalidHash (hash : String)
  | invalidVersion (version : String)
  | invalidCost (cost : String)
  | costOutOfRange (cost : Nat)
  | unreadable (fault : RadixFault)
  deriving DecidableEq, Repr

/-- The message for a fault. -/
def HashFault.message : HashFault → String
  | invalidHash hash => "Invalid hash: " ++ hash
  | invalidVersion version => "Invalid Prefix: " ++ version
  | invalidCost cost => "Invalid Cost: " ++ cost
  | costOutOfRange cost => "Cost needs to be between 4 and 31, got " ++ Text.decimalNat cost
  | unreadable fault => "Base64 error: " ++ fault.message

/-- The cost of new hashes. -/
def defaultCost : Nat := 12

/-- The bytes of a password that count. -/
def keyBytes (password : String) : List UInt8 :=
  (Text.toBytes password ++ [0]).take 72

/-- The 18 words of a key, its bytes repeated as often as needed. -/
def keyWords (bytes : List UInt8) : Vector UInt32 18 :=
  let bytes := bytes.toArray
  Vector.ofFn fun i =>
    (List.range 4).foldl
      (fun (w : UInt32) j => (w <<< 8) ||| (bytes.getD ((4 * i.val + j) % bytes.size) 0).toUInt32) 0

/-- The block of eight bytes from a position on. -/
def blockAt (bytes : List UInt8) (position : Nat) : UInt64 :=
  ((bytes.drop position).take 8).foldl (fun w b => (w <<< 8) ||| b.toUInt64) 0

/-- The eight bytes of a block. -/
def blockBytes (block : UInt64) : List UInt8 :=
  (List.range 8).map fun i => (block >>> (8 * (7 - UInt64.ofNat i))).toUInt8

/-- Expands the state with the password and with the salt by turns. -/
def expandRepeatedly (key salt : Vector UInt32 18) : Nat → Cipher → Cipher
  | 0, cipher => cipher
  | rounds + 1, cipher =>
    expandRepeatedly key salt rounds ((cipher.expand key 0 0).expand salt 0 0)

/-- The text that is encrypted, as three blocks. -/
def magicBlocks : List UInt64 :=
  let bytes := Text.toBytes "OrpheanBeholderScryDoubt"
  [blockAt bytes 0, blockAt bytes 8, blockAt bytes 16]

/-- The 24 bytes of the result for a key and a salt of 16 bytes. -/
def bcrypt (cost : Nat) (salt key : List UInt8) : List UInt8 :=
  let words := keyWords key
  let seeded := Cipher.initial.expand words (blockAt salt 0) (blockAt salt 8)
  let cipher := expandRepeatedly words (keyWords salt) (Nat.pow 2 cost) seeded
  magicBlocks.flatMap fun block => blockBytes (cipher.encryptRepeatedly 64 block)

/-- The part of the result that a hash keeps. -/
def digest (cost : Nat) (salt : List UInt8) (password : String) : List UInt8 :=
  (bcrypt cost salt (keyBytes password)).take 23

/-- The hash of a password with a salt of 16 bytes. -/
def hashWith (cost : Nat) (salt : List UInt8) (password : String) : String :=
  let digits := String.ofList (Nat.toDigits 10 cost)
  "$2b$" ++ (if cost < 10 then "0" ++ digits else digits) ++ "$" ++
    String.ofList (radixEncode salt) ++ String.ofList (radixEncode (digest cost salt password))

/-- The parts of a hash, not yet decoded. -/
structure HashParts where
  cost : Nat
  salt : List UInt8
  result : List UInt8

/-- Whether a byte continues a character in UTF-8. -/
def isContinuation (b : UInt8) : Bool :=
  0x80 ≤ b && b < 0xC0

/-- Splits a hash into its parts. -/
def splitHash (hash : String) : Except HashFault HashParts :=
  match (Text.pieces '$' hash).filter (· != "") with
  | [version, cost, rest] =>
    if version ∉ ["2a", "2b", "2x", "2y"] then .error (.invalidVersion version)
    else
      match Text.readBelow? (Nat.pow 2 32) cost with
      | none => .error (.invalidCost cost)
      | some n =>
        let bytes := Text.toBytes rest
        if bytes.length = 53 ∧ ¬(bytes.drop 22).head?.any isContinuation then
          .ok ⟨n, bytes.take 22, bytes.drop 22⟩
        else .error (.invalidHash hash)
  | _ => .error (.invalidHash hash)

/-- Whether a password has a given hash. -/
def verify (password hash : String) : Except HashFault Bool := do
  let parts ← splitHash hash
  let salt ← (radixDecode parts.salt).mapError .unreadable
  if parts.cost < 4 ∨ 31 < parts.cost then throw (.costOutOfRange parts.cost)
  let result := digest parts.cost salt password
  let expected ← (radixDecode parts.result).mapError .unreadable
  return expected == result

end Password
end AccountAccess
