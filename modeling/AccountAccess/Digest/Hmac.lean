import AccountAccess.Digest.Sha256

/-!
# HMAC-SHA-256

The key is brought to the length of one block and mixed with two fixed bytes.
The inner digest covers the first mixed key and the message, the outer digest the
second mixed key and the inner digest.
-/

namespace AccountAccess
namespace Digest

/-- The bytes in a block of the digest. -/
def blockSize : Nat := 64

/-- The key at the length of one block: a longer key is replaced by its digest, a
shorter one is filled up with zeros. -/
def blockKey (key : List UInt8) : List UInt8 :=
  let short := if key.length > blockSize then sha256 key else key
  short ++ List.replicate (blockSize - short.length) 0

/-- The HMAC-SHA-256 of a message under a key. -/
def hmacSha256 (key message : List UInt8) : List UInt8 :=
  let inner := sha256 ((blockKey key).map (· ^^^ 0x36) ++ message)
  sha256 ((blockKey key).map (· ^^^ 0x5C) ++ inner)

/-- An HMAC-SHA-256 has 32 bytes. -/
@[simp] theorem length_hmacSha256 (key message : List UInt8) :
    (hmacSha256 key message).length = 32 := by
  simp [hmacSha256]

end Digest
end AccountAccess
