import AccountAccess.Cache.Snapshots
import Mathlib.Data.List.Basic

/-!
# Where snapshots come from

Using snapshots never makes one: a look-up moves a snapshot to the front or drops it, and
keeping one more may push the last one out.  So every snapshot in the list is one of those
that were there, with the time at which it was fetched, or the one that was just kept.
Whatever is true of the snapshots of an empty list, and of each one when it is kept, is
therefore true of all of them at any time.

That is all that is needed for what a snapshot can say: how old it is and where it came from.  How
long it stays is another matter, which needs the order of the list.

## Main results

* `young?`, `fst_retrieve`: a look-up answers with the account of a snapshot that is young enough.
* `mem_of_mem_retrieve`, `mem_of_mem_remember`: a look-up makes no snapshot, and keeping one makes
  that one only.
* `Filed`: every snapshot is kept under the id of its account, so a look-up that is answered is
  answered with an account of that id (`Filed.id_of_young?`).
-/

namespace AccountAccess
namespace Snapshots

variable {snapshots : Snapshots} {now : Nat} {id : Int64} {account : Account} {kept : Snapshot}

/-! ## What a look-up finds -/

theorem of_find? (h : snapshots.find? id = some kept) : kept ∈ snapshots.entries ∧ kept.id = id :=
  ⟨List.mem_of_find?_eq_some h, by simpa using List.find?_some h⟩

/-- The account of a snapshot that is young enough to be used. -/
def young? (snapshots : Snapshots) (now : Nat) (id : Int64) : Option Account :=
  ((snapshots.find? id).filter fun kept => now - kept.fetchedAt < snapshots.ttl).map (·.account)

theorem young?_eq_some_iff : snapshots.young? now id = some account ↔
    ∃ kept, snapshots.find? id = some kept ∧ now - kept.fetchedAt < snapshots.ttl ∧
      kept.account = account := by
  simp [young?, Option.filter_eq_some_iff, and_assoc]

theorem fst_retrieve : (snapshots.retrieve now id).1 = snapshots.young? now id := by
  rw [retrieve, young?]
  cases snapshots.find? id with
  | none => rfl
  | some kept =>
    by_cases hyoung : now - kept.fetchedAt < snapshots.ttl
    · simp [hyoung, Option.filter_some]
    · simp [hyoung, Option.filter_some]

@[simp] theorem ttl_retrieve : (snapshots.retrieve now id).2.ttl = snapshots.ttl := by
  rw [retrieve]
  split
  · rfl
  · split
    · rfl
    · rfl

/-! ## Which snapshots there are -/

/-- **A look-up makes no snapshot.** -/
theorem mem_of_mem_retrieve (h : kept ∈ (snapshots.retrieve now id).2.entries) :
    kept ∈ snapshots.entries := by
  rw [retrieve] at h
  split at h
  · exact h
  · rename_i found hfound
    split at h
    · rcases List.mem_cons.1 h with rfl | hother
      · exact (of_find? hfound).1
      · exact List.mem_of_mem_filter hother
    · exact List.mem_of_mem_filter h

/-- **Keeping a snapshot makes that one only.** -/
theorem mem_of_mem_remember (h : kept ∈ (snapshots.remember now id account).entries) :
    kept = ⟨id, now, account⟩ ∨ kept ∈ snapshots.entries := by
  rcases List.mem_cons.1 (List.mem_of_mem_take h) with rfl | hother
  · exact Or.inl rfl
  · exact Or.inr (List.mem_of_mem_filter hother)

/-! ## Snapshots under their ids -/

/-- Every snapshot is kept under the id of its account. -/
def Filed (snapshots : Snapshots) : Prop :=
  ∀ kept ∈ snapshots.entries, kept.account.id = kept.id

theorem filed_empty (capacity ttl : Nat) : (Snapshots.empty capacity ttl).Filed :=
  fun _ h => absurd h List.not_mem_nil

theorem Filed.id_of_young? (h : snapshots.Filed) (hyoung : snapshots.young? now id = some account) :
    account.id = id := by
  obtain ⟨kept, hfound, -, rfl⟩ := young?_eq_some_iff.1 hyoung
  obtain ⟨hmem, rfl⟩ := of_find? hfound
  exact h kept hmem

end Snapshots
end AccountAccess
