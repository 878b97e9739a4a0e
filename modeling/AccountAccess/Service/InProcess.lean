import AccountAccess.Cache.Memory
import AccountAccess.Cache.Snapshots
import AccountAccess.Service.Interface
import AccountAccess.Store.Memory

/-!
# The surroundings in one process

Cache, store and snapshots in memory, with a clock of their own, a clock on the
wall and a supply of random bytes.  Any call of the cache or the store can be made
to fail before it reaches its backend, and all of them are noted in order, those
that fail included.
-/

namespace AccountAccess

/-- The kinds of calls that can be made to fail. -/
inductive CallKind where
  | cacheGet
  | cacheSet
  | cacheRemove
  | cacheSwap
  | cacheAnyMember
  | cacheWrite
  | cacheCount
  | storeAccount
  | storeAccountOf
  | storeResourcesOf
  | storeCodesOf
  | storeSetPassword
  | storeSetLastLogin
  deriving DecidableEq, Repr

/-- The kind of a cache call. -/
def CacheCall.kind : CacheCall → CallKind
  | get _ => .cacheGet
  | set .. => .cacheSet
  | remove _ => .cacheRemove
  | swap .. => .cacheSwap
  | anyMember .. => .cacheAnyMember
  | write _ => .cacheWrite
  | count .. => .cacheCount

/-- The kind of a store call. -/
def StoreCall.kind : StoreCall → CallKind
  | account _ => .storeAccount
  | accountOf _ => .storeAccountOf
  | resourcesOf .. => .storeResourcesOf
  | codesOf _ => .storeCodesOf
  | setPassword .. => .storeSetPassword
  | setLastLogin .. => .storeSetLastLogin

/-- With which error a call is made to fail. -/
inductive FaultCause where
  | timedOut
  /-- An unavailable cache, or a corrupt row of which something is said. -/
  | other (what : String)
  deriving DecidableEq, Repr

/-- The error of a cache call. -/
def FaultCause.cacheError : FaultCause → CacheError
  | timedOut => .timedOut
  | other _ => .unavailable

/-- The error of a store call. -/
def FaultCause.storeError : FaultCause → StoreError
  | timedOut => .timedOut
  | other what => .corrupt what

/-- A fault: all calls of a kind fail after a number of them have passed. -/
structure Fault where
  passes : Nat
  cause : FaultCause
  deriving DecidableEq, Repr

/-- The surroundings of the service. -/
structure World where
  /-- The clock of cache and snapshots, in milliseconds. -/
  clock : Nat := 0
  /-- The clock on the wall. -/
  wall : Timestamp
  cache : MemoryCache := {}
  store : MemoryStore := {}
  snapshots : Snapshots
  faults : CallKind → Option Fault := fun _ => none
  /-- The random bytes still to be drawn. -/
  supply : Nat → RandomBytes
  /-- The cache and store calls so far, the last one first. -/
  log : List ServiceCall := []

namespace World

/-- Sets or removes the fault of a kind of calls. -/
def setFault (world : World) (kind : CallKind) (fault : Option Fault) : World :=
  { world with faults := fun k => if k = kind then fault else world.faults k }

/-- Whether a call of a kind fails now; a call that passes is counted off. -/
def strike (world : World) (kind : CallKind) : Option FaultCause × World :=
  match world.faults kind with
  | none => (none, world)
  | some ⟨0, cause⟩ => (some cause, world)
  | some ⟨passes + 1, cause⟩ => (none, world.setFault kind (some ⟨passes, cause⟩))

/-- Notes a call. -/
def noted (world : World) (call : ServiceCall) : World :=
  { world with log := call :: world.log }

/-- Answers a cache call. -/
def answerCache (world : World) (call : CacheCall) :
    Outcome (Except CacheError call.Result) × World :=
  match (world.noted (.cache call)).strike call.kind with
  | (some cause, world) => (.finished (.error cause.cacheError), world)
  | (none, world) =>
    match world.cache.answer world.clock call with
    | (some answer, cache) => (.finished answer, { world with cache })
    | (none, cache) => (.aborted, { world with cache })

/-- Answers a store call. -/
def answerStore (world : World) (call : StoreCall) :
    Except StoreError call.Result × World :=
  match (world.noted (.store call)).strike call.kind with
  | (some cause, world) => (.error cause.storeError, world)
  | (none, world) =>
    let (answer, store) := world.store.answer call
    (.ok answer, { world with store })

/-- Answers a call of the service. -/
def answer : Handler serviceInterface World
  | .cache call, world => world.answerCache call
  | .store call, world =>
    let (answer, world) := world.answerStore call
    (.finished answer, world)
  | .retrieve id, world =>
    let (account, snapshots) := world.snapshots.retrieve world.clock id
    (.finished account, { world with snapshots })
  | .remember id account, world =>
    (.finished (), { world with snapshots := world.snapshots.remember world.clock id account })
  | .now, world => (.finished world.wall, world)
  | .random, world =>
    (.finished (world.supply 0), { world with supply := fun n => world.supply (n + 1) })

/-- Plays a procedure. -/
def run (world : World) (procedure : Procedure α) : Outcome α × World :=
  Dialogue.run answer procedure world

/-- Lets time pass in cache and snapshots. -/
def advance (world : World) (milliseconds : Nat) : World :=
  { world with clock := world.clock + milliseconds }

end World
end AccountAccess
