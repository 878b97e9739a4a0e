/-!
# The Blowfish cipher

Blowfish encrypts blocks of two words in sixteen rounds.  Its state is a list of
18 round keys and four substitution boxes of 256 words each.  The state starts as
the binary expansion of the fraction of π and is then expanded with a key: the
key is mixed into the round keys, and the whole state is replaced, two words at a
time, by successive encryptions.
-/

namespace AccountAccess
namespace Password

/-! ## The fraction of π -/

/-- The number of words in the state. -/
def stateWords : Nat := 18 + 1024

/-- `scale · arctan (1 / x)`, from the alternating series of the odd powers of
`1 / x`.  `power` is `scale / x ^ (2 k + 1)`, cut to a whole number; the number of
terms is bounded by the bits of `scale`. -/
def arctanTerms (x : Nat) : Nat → Nat → Nat → Int → Int
  | 0, _, _, sum => sum
  | terms + 1, k, power, sum =>
    if power = 0 then sum
    else
      let term : Int := power / (2 * k + 1)
      arctanTerms x terms (k + 1) (power / (x * x)) (if k % 2 = 0 then sum + term else sum - term)

/-- `arctanTerms` from the first term on. -/
def arctanInverse (bits x : Nat) : Int :=
  arctanTerms x bits 0 (Nat.pow 2 bits / x) 0

/-- The leading bits of the fraction of π, by Machin's formula
`π = 16 arctan (1 / 5) - 4 arctan (1 / 239)`; 64 further bits absorb the errors of
the cut terms. -/
def piFraction (bits : Nat) : Nat :=
  let scaled := 16 * arctanInverse (bits + 64) 5 - 4 * arctanInverse (bits + 64) 239
  scaled.toNat / Nat.pow 2 64 % Nat.pow 2 bits

/-- The fraction of π in words, most significant first. -/
def piWords : Array UInt32 :=
  let fraction := piFraction (32 * stateWords)
  (Array.range stateWords).map fun i =>
    UInt32.ofNat (fraction >>> (32 * (stateWords - 1 - i)) % Nat.pow 2 32)

/-! ## The cipher -/

/-- The state of the cipher: round keys and substitution boxes. -/
structure Cipher where
  keys : Vector UInt32 18
  boxes : Vector UInt32 1024

/-- The state before any key: the fraction of π. -/
def Cipher.initial : Cipher :=
  ⟨Vector.ofFn fun i => piWords.getD i 0, Vector.ofFn fun i => piWords.getD (18 + i) 0⟩

/-- The entry of a box for a byte. -/
@[inline] def boxEntry (boxes : Vector UInt32 1024) (box : Fin 4) (b : UInt8) : UInt32 :=
  have : 256 * box.val + b.toNat < 1024 := by have := b.toNat_lt; omega
  boxes[256 * box.val + b.toNat]

/-- The round function: the bytes of a word select one entry of each box. -/
@[inline] def mixWord (boxes : Vector UInt32 1024) (w : UInt32) : UInt32 :=
  ((boxEntry boxes 0 (w >>> 24).toUInt8 + boxEntry boxes 1 (w >>> 16).toUInt8) ^^^
    boxEntry boxes 2 (w >>> 8).toUInt8) + boxEntry boxes 3 w.toUInt8

/-- Two words as one block, the left one in the high half. -/
@[inline] def joinWords (left right : UInt32) : UInt64 :=
  (left.toUInt64 <<< 32) ||| right.toUInt64

/-- The left word of a block. -/
@[inline] def leftWord (block : UInt64) : UInt32 :=
  (block >>> 32).toUInt32

/-- The right word of a block. -/
@[inline] def rightWord (block : UInt64) : UInt32 :=
  block.toUInt32

/-- Pairs of rounds on the two words of a block. -/
def roundPairs (keys : Vector UInt32 18) (boxes : Vector UInt32 1024) :
    (pairs : Nat) → pairs ≤ 8 → UInt32 → UInt32 → UInt64
  | 0, _, left, right => joinWords (right ^^^ keys[17]) (left ^^^ keys[16])
  | pairs + 1, h, left, right =>
    let left := left ^^^ keys[2 * (7 - pairs)]
    let right := right ^^^ mixWord boxes left ^^^ keys[2 * (7 - pairs) + 1]
    roundPairs keys boxes pairs (by omega) (left ^^^ mixWord boxes right) right

/-- Encrypts one block. -/
def encryptBlock (keys : Vector UInt32 18) (boxes : Vector UInt32 1024) (block : UInt64) :
    UInt64 :=
  roundPairs keys boxes 8 (by omega) (leftWord block) (rightWord block)

/-! ## Expansion with a key -/

/-- Replaces the round keys, two at a time, by successive encryptions; the two
halves of the salt are mixed in by turns.  The last block is handed on. -/
def expandKeys (boxes : Vector UInt32 1024) :
    (pairs : Nat) → pairs ≤ 9 → UInt64 → UInt64 → UInt64 → Vector UInt32 18 →
      Vector UInt32 18 × UInt64
  | 0, _, _, _, block, keys => (keys, block)
  | pairs + 1, h, salt, otherSalt, block, keys =>
    let block := encryptBlock keys boxes (block ^^^ salt)
    let keys := keys.set (2 * (8 - pairs)) (leftWord block)
    let keys := keys.set (2 * (8 - pairs) + 1) (rightWord block)
    expandKeys boxes pairs (by omega) otherSalt salt block keys

/-- Replaces the entries of the boxes in the same way. -/
def expandBoxes (keys : Vector UInt32 18) :
    (pairs : Nat) → pairs ≤ 512 → UInt64 → UInt64 → UInt64 → Vector UInt32 1024 →
      Vector UInt32 1024
  | 0, _, _, _, _, boxes => boxes
  | pairs + 1, h, salt, otherSalt, block, boxes =>
    let block := encryptBlock keys boxes (block ^^^ salt)
    let boxes := boxes.set (2 * (511 - pairs)) (leftWord block)
    let boxes := boxes.set (2 * (511 - pairs) + 1) (rightWord block)
    expandBoxes keys pairs (by omega) otherSalt salt block boxes

/-- Mixes a key into the round keys and replaces the whole state, with a salt of
two blocks. -/
def Cipher.expand (cipher : Cipher) (key : Vector UInt32 18) (salt₀ salt₁ : UInt64) : Cipher :=
  let mixed := Vector.zipWith (· ^^^ ·) cipher.keys key
  let (keys, block) := expandKeys cipher.boxes 9 (by omega) salt₀ salt₁ 0 mixed
  ⟨keys, expandBoxes keys 512 (by omega) salt₁ salt₀ block cipher.boxes⟩

/-- Encrypts one block a number of times over. -/
def Cipher.encryptRepeatedly (cipher : Cipher) : Nat → UInt64 → UInt64
  | 0, block => block
  | times + 1, block =>
    cipher.encryptRepeatedly times (encryptBlock cipher.keys cipher.boxes block)

end Password
end AccountAccess
