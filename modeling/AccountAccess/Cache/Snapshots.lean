import AccountAccess.Account.Basic

/-!
# Account snapshots kept in the process

Accounts that were fetched from the store are kept for a while.  The list is
bounded: when it is full, the snapshot that was used longest ago gives way.  Using
a snapshot does not make it younger.
-/

namespace AccountAccess

/-- An account as it was fetched at a time, in milliseconds. -/
structure Snapshot where
  id : Int64
  fetchedAt : Nat
  account : Account
  deriving DecidableEq, Repr

/-- Snapshots, the most recently used first, at most one for each id. -/
structure Snapshots where
  /-- The most snapshots that are kept. -/
  capacity : Nat
  /-- How long a snapshot is used, in milliseconds. -/
  ttl : Nat
  entries : List Snapshot := []
  deriving DecidableEq, Repr

namespace Snapshots

/-- No snapshots.  There is always room for one. -/
def empty (capacity ttl : Nat) : Snapshots :=
  { capacity := max capacity 1, ttl }

/-- The largest capacity there can be: the table for more would not fit the
address space. -/
def largestCapacity : Nat := 7 * Nat.pow 2 55

/-- No snapshots, if there can be that capacity. -/
def ofCapacity? (capacity ttl : Nat) : Option Snapshots :=
  if capacity ≤ largestCapacity then some (empty capacity ttl) else none

/-- The snapshots of other ids. -/
def without (snapshots : Snapshots) (id : Int64) : List Snapshot :=
  snapshots.entries.filter (·.id != id)

/-- The snapshot of an id, young enough or not. -/
def find? (snapshots : Snapshots) (id : Int64) : Option Snapshot :=
  snapshots.entries.find? (·.id == id)

/-- Uses the snapshot of an id if it is young enough; a snapshot that is too old
is dropped. -/
def retrieve (snapshots : Snapshots) (now : Nat) (id : Int64) : Option Account × Snapshots :=
  match snapshots.find? id with
  | none => (none, snapshots)
  | some snapshot =>
    if now - snapshot.fetchedAt < snapshots.ttl then
      (some snapshot.account, { snapshots with entries := snapshot :: snapshots.without id })
    else (none, { snapshots with entries := snapshots.without id })

/-- Keeps a snapshot that was fetched now. -/
def remember (snapshots : Snapshots) (now : Nat) (id : Int64) (account : Account) : Snapshots :=
  { snapshots with
    entries := (⟨id, now, account⟩ :: snapshots.without id).take snapshots.capacity }

end Snapshots
end AccountAccess
