import AccountAccess.Cache.Call
import AccountAccess.Text.Integer
import Std.Data.ExtTreeMap
import Std.Data.ExtTreeSet

/-!
# The cache in memory

Entries may have an expiry time.  An expired entry stays in the table until
something replaces it, but every operation treats it as absent: a reading skips
it, and a writing starts afresh.

The clock counts milliseconds and has an end.  A write whose expiry time lies
beyond the end breaks off; the answer type keeps this apart from an error, and the
writes before it in the same call stay.
-/

namespace AccountAccess

/-- What an entry holds. -/
inductive CacheValue where
  | text (value : String)
  | members (set : Std.ExtTreeSet String)
  | counter (count : Int64)

/-- A value with the time, in milliseconds, from which it counts as absent. -/
structure CacheEntry where
  value : CacheValue
  expiresAt : Option Nat

namespace CacheEntry

/-- Whether an entry counts at a time. -/
def isLive (now : Nat) (entry : CacheEntry) : Bool :=
  match entry.expiresAt with
  | some at_ => now < at_
  | none => true

end CacheEntry

/-- The table of entries. -/
abbrev CacheTable := Std.ExtTreeMap String CacheEntry

/-- The cache: its table, and whether it answers calls at all. -/
structure MemoryCache where
  entries : CacheTable := ∅
  isAvailable : Bool := true

/-- The first second that the clock cannot show: it counts in 63 bits, from a second
or more before the cache is set up. -/
def clockEnd : Nat := Nat.pow 2 63 - 1

/-- The time a number of seconds after `now`, if the clock reaches it. -/
def expiry? (now : Nat) (seconds : UInt64) : Option Nat :=
  if now / 1000 + seconds.toNat < clockEnd then some (now + 1000 * seconds.toNat) else none

namespace CacheTable

/-- The entry of a key, unless it has expired. -/
def live? (table : CacheTable) (now : Nat) (key : String) : Option CacheEntry :=
  table[key]?.filter (·.isLive now)

/-- The table after one write; none when the clock ends before the expiry time. -/
def write? (table : CacheTable) (now : Nat) : CacheWrite → Option CacheTable
  | .setText key value ttl =>
    (expiry? now ttl).map fun at_ => table.insert key ⟨.text value, some at_⟩
  | .remove key => some (table.erase key)
  | .addMembers key members =>
    if members = [] then some table
    else
      match table.live? now key with
      | some ⟨.members set, expiresAt⟩ =>
        some (table.insert key ⟨.members (set.insertMany members), expiresAt⟩)
      | _ =>
        some (table.insert key ⟨.members ((∅ : Std.ExtTreeSet String).insertMany members), none⟩)

/-- The table after writes in order, and whether all of them were carried out. -/
def writeAll (table : CacheTable) (now : Nat) : List CacheWrite → Bool × CacheTable
  | [] => (true, table)
  | write :: writes =>
    match table.write? now write with
    | some table => writeAll table now writes
    | none => (false, table)

end CacheTable

namespace MemoryCache

/-- The members of the set at a key, in order. -/
def membersAt (cache : MemoryCache) (now : Nat) (key : String) : List String :=
  match cache.entries.live? now key with
  | some ⟨.members set, _⟩ => set.toList
  | _ => []

/-- Whether there is an entry at a key. -/
def containsKey (cache : MemoryCache) (now : Nat) (key : String) : Bool :=
  (cache.entries.live? now key).isSome

/-- The text of the entry at a key; a counter reads as its number, a set as
nothing. -/
def textAt (cache : MemoryCache) (now : Nat) (key : String) : Option String :=
  match cache.entries.live? now key with
  | some ⟨.text value, _⟩ => some value
  | some ⟨.counter n, _⟩ => some (Text.decimal n)
  | _ => none

/-- Carries out writes; no answer when the clock ends. -/
def writeAll (cache : MemoryCache) (now : Nat) (writes : List CacheWrite) :
    Option (Except CacheError Unit) × MemoryCache :=
  let (finished, entries) := cache.entries.writeAll now writes
  (if finished then some (.ok ()) else none, { cache with entries })

/-- Answers a call of an available cache. -/
def perform (cache : MemoryCache) (now : Nat) :
    (call : CacheCall) → Option (Except CacheError call.Result) × MemoryCache
  | .get key => (some (.ok (cache.textAt now key)), cache)
  | .set key value ttl => cache.writeAll now [.setText key value ttl]
  | .remove keys => cache.writeAll now (keys.map .remove)
  | .swap key value ttl =>
    let store (previous : Option String) :=
      match cache.entries.write? now (.setText key value ttl) with
      | some entries => (some (.ok previous), { cache with entries })
      | none => (none, cache)
    match cache.entries.live? now key with
    | none => store none
    | some ⟨.text previous, _⟩ => store (some previous)
    | some _ => (some (.error .unavailable), cache)
  | .anyMember key members =>
    let found :=
      match cache.entries.live? now key with
      | some ⟨.members set, _⟩ => members.any set.contains
      | _ => false
    (some (.ok found), cache)
  | .write writes => cache.writeAll now writes
  | .count key window =>
    let store (n : Int64) (expiresAt : Option Nat) : MemoryCache :=
      { cache with entries := cache.entries.insert key ⟨.counter n, expiresAt⟩ }
    let increment (n : Int64) (expiresAt : Option Nat) :
        Option (Except CacheError Int64) × MemoryCache :=
      if n + 1 = 1 then
        match expiry? now window with
        | some at_ => (some (.ok 1), store 1 (some at_))
        | none => (none, store 1 expiresAt)
      else (some (.ok (n + 1)), store (n + 1) expiresAt)
    match cache.entries.live? now key with
    | none => increment 0 none
    | some ⟨.counter n, expiresAt⟩ => increment n expiresAt
    | some _ => (some (.error .unavailable), cache)

/-- Answers a call: an unavailable cache refuses every call and changes
nothing. -/
def answer (cache : MemoryCache) (now : Nat) (call : CacheCall) :
    Option (Except CacheError call.Result) × MemoryCache :=
  if cache.isAvailable then cache.perform now call else (some (.error .unavailable), cache)

end MemoryCache
end AccountAccess
