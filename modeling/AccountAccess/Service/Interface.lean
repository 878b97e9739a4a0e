import AccountAccess.Cache.Call
import AccountAccess.Dialogue
import AccountAccess.Password.Bcrypt
import AccountAccess.Digest.Hmac
import AccountAccess.Store.Call

/-!
# What the service asks of its surroundings

The service talks to the cache, to the account store and to the snapshots kept in
its own process; it looks at the clock and draws random bytes.  These are the
calls of one interface, so that the order of all of them is visible in one
dialogue.

Hashing passwords and signing payloads need no surroundings.  They are the
*primitives*: the service uses whichever it is given.
-/

namespace AccountAccess

/-- Sixteen random bytes. -/
abbrev RandomBytes := Vector UInt8 16

/-- The calls of the service. -/
inductive ServiceCall where
  | cache (call : CacheCall)
  | store (call : StoreCall)
  /-- Looks for a young snapshot of an account; an old one is dropped. -/
  | retrieve (account : Int64)
  /-- Keeps a snapshot of an account. -/
  | remember (account : Int64) (snapshot : Account)
  /-- Looks at the clock on the wall. -/
  | now
  /-- Draws random bytes. -/
  | random
  deriving DecidableEq, Repr

/-- What a call is answered with. -/
abbrev ServiceCall.Answer : ServiceCall → Type
  | cache call => Except CacheError call.Result
  | store call => Except StoreError call.Result
  | retrieve _ => Option Account
  | remember .. => Unit
  | now => Timestamp
  | random => RandomBytes

/-- The interface of the service. -/
abbrev serviceInterface : Interface :=
  ⟨ServiceCall, ServiceCall.Answer⟩

/-- What the service does to answer a question: a dialogue with its surroundings. -/
abbrev Procedure (α : Type) := Dialogue serviceInterface α

namespace Procedure

/-- A call of the cache. -/
def cache (call : CacheCall) : Procedure (Except CacheError call.Result) :=
  Dialogue.call (I := serviceInterface) (.cache call)

/-- A call of the store. -/
def store (call : StoreCall) : Procedure (Except StoreError call.Result) :=
  Dialogue.call (I := serviceInterface) (.store call)

/-- A young snapshot of an account. -/
def retrieve (account : Int64) : Procedure (Option Account) :=
  Dialogue.call (I := serviceInterface) (.retrieve account)

/-- Keeps a snapshot of an account. -/
def remember (account : Int64) (snapshot : Account) : Procedure Unit :=
  Dialogue.call (I := serviceInterface) (.remember account snapshot)

/-- The time on the wall. -/
def now : Procedure Timestamp :=
  Dialogue.call (I := serviceInterface) .now

/-- Random bytes. -/
def random : Procedure RandomBytes :=
  Dialogue.call (I := serviceInterface) .random

end Procedure

/-- Hashing and signing. -/
structure Primitives where
  /-- The hash of a password with a salt. -/
  hashPassword : RandomBytes → String → String
  /-- Whether a password has a hash; an unusable hash is a fault with a message. -/
  checkPassword : String → String → Except String Bool
  /-- The signature of a payload under a secret. -/
  sign : List UInt8 → List UInt8 → List UInt8

/-- Bcrypt and HMAC-SHA-256. -/
def Primitives.standard : Primitives where
  hashPassword salt password := Password.hashWith Password.defaultCost salt.toList password
  checkPassword password hash := (Password.verify password hash).mapError Password.HashFault.message
  sign := Digest.hmacSha256

end AccountAccess
