import AccountAccess.Proofs.Cache.Snapshots
import Mathlib.Data.Finset.Card
import Mathlib.Data.List.Nodup

/-!
# How long a snapshot keeps its place

The snapshots stand in the order in which they were last used, one for each id at most, and
when there is no room the last one gives way.  Only using a snapshot, or keeping a new one,
puts one in front of others.  So in front of a snapshot stand, once each, only ids that were
used since it was; as long as these are fewer than there is room for, the snapshot stays.

What stands in front is described by a finite set of ids and not by the list itself.  A set
forgets the order and how often an id was used, which is just what does not matter, and the bound
becomes one on its cardinality.

## Definitions

* `Orderly`: one snapshot for each id at most, and no more than there is room for.
* `Maintains`: room, life, order and bound are not lost between two moments.
* `KeptBehind`: a snapshot is kept, and only some ids stand in front of it.

## Main results

* `Orderly.find?_of_mem`: what is kept is found.
* `Orderly.retrieve`, `Orderly.remember`: both operations keep order and bound.
* `KeptBehind.take`: behind fewer ids than there is room for, a snapshot does not give way.
* `KeptBehind.retrieve`, `KeptBehind.remember`: what either operation puts in front.
-/

namespace AccountAccess
namespace Snapshots

variable {snapshots : Snapshots} {now : Nat} {id : Int64} {account : Account}
  {kept newly : Snapshot} {entries : List Snapshot} {ids : Finset Int64}

/-! ## What a look-up leaves -/

theorem young?_of_find? (hfound : snapshots.find? id = some kept)
    (hyoung : now - kept.fetchedAt < snapshots.ttl) :
    snapshots.young? now id = some kept.account :=
  young?_eq_some_iff.2 ⟨kept, hfound, hyoung, rfl⟩

theorem snd_retrieve_of_young (hfound : snapshots.find? id = some kept)
    (hyoung : now - kept.fetchedAt < snapshots.ttl) :
    (snapshots.retrieve now id).2 =
      { snapshots with entries := kept :: snapshots.without id } := by
  simp only [retrieve, hfound, if_pos hyoung]

/-- Where there is no young snapshot there is none afterwards. -/
theorem snd_retrieve_of_none (h : snapshots.young? now id = none) :
    (snapshots.retrieve now id).2 = { snapshots with entries := snapshots.without id } := by
  cases hfound : snapshots.find? id with
  | none =>
    have hother : snapshots.without id = snapshots.entries :=
      List.filter_eq_self.2 fun other hmem => by
        simpa using List.find?_eq_none.1 hfound other hmem
    simp only [retrieve, hfound, hother]
  | some kept =>
    have hold : ¬now - kept.fetchedAt < snapshots.ttl := fun hyoung => by
      rw [young?_of_find? hfound hyoung] at h
      exact absurd h (by simp)
    simp only [retrieve, hfound, if_neg hold]

theorem id_ne_of_mem_without (h : kept ∈ snapshots.without id) : kept.id ≠ id := by
  simpa using (List.mem_filter.1 h).2

/-! ## Order and bound -/

/-- There is one snapshot for each id at most, and there are no more than there is room for. -/
structure Orderly (snapshots : Snapshots) : Prop where
  nodup : (snapshots.entries.map (·.id)).Nodup
  length_le : snapshots.entries.length ≤ snapshots.capacity

theorem orderly_empty (capacity ttl : Nat) : (Snapshots.empty capacity ttl).Orderly :=
  ⟨List.nodup_nil, Nat.zero_le _⟩

namespace Orderly

/-! ## What both operations keep -/

theorem nodup_without (h : snapshots.Orderly) (id : Int64) :
    ((snapshots.without id).map (·.id)).Nodup :=
  h.nodup.sublist (List.filter_sublist.map _)

theorem nodup_cons (h : snapshots.Orderly) (hid : kept.id = id) :
    ((kept :: snapshots.without id).map (·.id)).Nodup := by
  rw [List.map_cons, List.nodup_cons]
  refine ⟨fun hmem => ?_, h.nodup_without id⟩
  obtain ⟨other, hother, hsame⟩ := List.mem_map.1 hmem
  exact id_ne_of_mem_without hother (hsame.trans hid)

/-- **What is kept is found.** -/
theorem find?_of_mem (h : snapshots.Orderly) (hmem : kept ∈ snapshots.entries) :
    snapshots.find? kept.id = some kept := by
  cases hfound : snapshots.find? kept.id with
  | none => exact absurd (List.find?_eq_none.1 hfound kept hmem) (by simp)
  | some found =>
    obtain ⟨hfoundmem, hid⟩ := of_find? hfound
    rw [List.inj_on_of_nodup_map h.nodup hfoundmem hmem hid]

/-- **A look-up keeps order and bound.** -/
theorem retrieve (h : snapshots.Orderly) (now : Nat) (id : Int64) :
    (snapshots.retrieve now id).2.Orderly := by
  cases hyoung : snapshots.young? now id with
  | none =>
    rw [snd_retrieve_of_none hyoung]
    exact ⟨h.nodup_without id, (List.length_filter_le _ _).trans h.length_le⟩
  | some account =>
    obtain ⟨kept, hfound, hage, -⟩ := young?_eq_some_iff.1 hyoung
    obtain ⟨hmem, hid⟩ := of_find? hfound
    rw [snd_retrieve_of_young hfound hage]
    refine ⟨h.nodup_cons hid, ?_⟩
    have hfewer : (snapshots.without id).length < snapshots.entries.length :=
      List.length_filter_lt_length_iff_exists.2 ⟨kept, hmem, by simp [hid]⟩
    exact Nat.le_trans hfewer h.length_le

/-- **Keeping a snapshot keeps order and bound.** -/
theorem remember (h : snapshots.Orderly) (now : Nat) (id : Int64) (account : Account) :
    (snapshots.remember now id account).Orderly := by
  have hnodup : (((⟨id, now, account⟩ : Snapshot) :: snapshots.without id).map (·.id)).Nodup :=
    h.nodup_cons rfl
  exact ⟨hnodup.sublist ((List.take_sublist _ _).map _), List.length_take_le _ _⟩

end Orderly

/-- What is never lost: room and life of the snapshots, their order and their bound. -/
structure Maintains (before after : Snapshots) : Prop where
  capacity : after.capacity = before.capacity
  ttl : after.ttl = before.ttl
  orderly : before.Orderly → after.Orderly

namespace Maintains

variable {before between after : Snapshots}

protected theorem refl (snapshots : Snapshots) : Maintains snapshots snapshots :=
  ⟨rfl, rfl, id⟩

protected theorem trans (h : Maintains before between) (h' : Maintains between after) :
    Maintains before after :=
  ⟨h'.capacity.trans h.capacity, h'.ttl.trans h.ttl, h'.orderly ∘ h.orderly⟩

theorem retrieve (snapshots : Snapshots) (now : Nat) (id : Int64) :
    Maintains snapshots (snapshots.retrieve now id).2 := by
  refine ⟨?_, ttl_retrieve, fun h => h.retrieve now id⟩
  rw [Snapshots.retrieve]
  split
  · rfl
  · split
    · rfl
    · rfl

theorem remember (snapshots : Snapshots) (now : Nat) (id : Int64) (account : Account) :
    Maintains snapshots (snapshots.remember now id account) :=
  ⟨rfl, rfl, fun h => h.remember now id account⟩

end Maintains

/-! ## What stands in front of a snapshot -/

/-- A snapshot is kept, and only snapshots of some ids stand in front of it. -/
def KeptBehind (entries : List Snapshot) (ids : Finset Int64) (kept : Snapshot) : Prop :=
  ∃ front back, entries = front ++ kept :: back ∧ ∀ other ∈ front, other.id ∈ ids

namespace KeptBehind

theorem mem (h : KeptBehind entries ids kept) : kept ∈ entries := by
  obtain ⟨front, back, rfl, -⟩ := h
  exact List.mem_append_right front List.mem_cons_self

/-- At the front a snapshot has nothing in front of it. -/
theorem head (kept : Snapshot) (entries : List Snapshot) : KeptBehind (kept :: entries) ∅ kept :=
  ⟨[], entries, rfl, fun _ hmem => absurd hmem List.not_mem_nil⟩

theorem filter (h : KeptBehind entries ids kept) (hne : kept.id ≠ id) :
    KeptBehind (entries.filter (·.id != id)) ids kept := by
  obtain ⟨front, back, rfl, hfront⟩ := h
  refine ⟨front.filter (·.id != id), back.filter (·.id != id), ?_, ?_⟩
  · rw [List.filter_append, List.filter_cons_of_pos (by simpa using hne)]
  · intro other hmem
    exact hfront other (List.mem_of_mem_filter hmem)

theorem cons (h : KeptBehind entries ids kept) (newly : Snapshot) :
    KeptBehind (newly :: entries) (insert newly.id ids) kept := by
  obtain ⟨front, back, rfl, hfront⟩ := h
  refine ⟨newly :: front, back, rfl, fun other hmem => ?_⟩
  rcases List.mem_cons.1 hmem with rfl | hold
  · exact Finset.mem_insert_self _ _
  · exact Finset.mem_insert_of_mem (hfront other hold)

theorem mono {more : Finset Int64} (h : KeptBehind entries ids kept) (hids : ids ⊆ more) :
    KeptBehind entries more kept := by
  obtain ⟨front, back, hentries, hfront⟩ := h
  exact ⟨front, back, hentries, fun other hmem => hids (hfront other hmem)⟩

/-- **Behind fewer ids than there is room for**, a snapshot does not give way. -/
theorem take {room : Nat} (h : KeptBehind entries ids kept) (hnodup : (entries.map (·.id)).Nodup)
    (hroom : ids.card < room) : KeptBehind (entries.take room) ids kept := by
  obtain ⟨front, back, rfl, hfront⟩ := h
  have hfrontnodup : (front.map (·.id)).Nodup :=
    hnodup.sublist ((List.sublist_append_left _ _).map _)
  have hsubset : (front.map (·.id)).toFinset ⊆ ids := by
    intro id hid
    obtain ⟨other, hmem, rfl⟩ := List.mem_map.1 (List.mem_toFinset.1 hid)
    exact hfront other hmem
  have hfew : front.length ≤ ids.card := by
    calc front.length = (front.map (·.id)).toFinset.card := by
          rw [List.toFinset_card_of_nodup hfrontnodup, List.length_map]
      _ ≤ ids.card := Finset.card_le_card hsubset
  obtain ⟨left, hleft⟩ : ∃ left, room - front.length = left + 1 :=
    ⟨room - front.length - 1, by omega⟩
  refine ⟨front, back.take left, ?_, hfront⟩
  rw [List.take_append, List.take_of_length_le (by omega), hleft, List.take_succ_cons]

/-- A look-up of another id. -/
theorem retrieve (h : KeptBehind snapshots.entries ids kept) (hne : kept.id ≠ id) (now : Nat) :
    KeptBehind (snapshots.retrieve now id).2.entries (insert id ids) kept := by
  cases hyoung : snapshots.young? now id with
  | none =>
    rw [snd_retrieve_of_none hyoung]
    exact (h.filter hne).mono (Finset.subset_insert _ _)
  | some account =>
    obtain ⟨found, hfound, hage, -⟩ := young?_eq_some_iff.1 hyoung
    obtain ⟨-, rfl⟩ := of_find? hfound
    rw [snd_retrieve_of_young hfound hage]
    exact (h.filter hne).cons found

/-- **A snapshot of another id is kept while there is room.** -/
theorem remember (h : KeptBehind snapshots.entries ids kept) (hne : kept.id ≠ id)
    (horderly : snapshots.Orderly) (hroom : (insert id ids).card < snapshots.capacity) (now : Nat)
    (account : Account) :
    KeptBehind (snapshots.remember now id account).entries (insert id ids) kept :=
  ((h.filter hne).cons ⟨id, now, account⟩).take (horderly.nodup_cons rfl) hroom

end KeptBehind

theorem keptBehind_remember (horderly : snapshots.Orderly) (hroom : 0 < snapshots.capacity)
    (now : Nat) (id : Int64) (account : Account) :
    KeptBehind (snapshots.remember now id account).entries ∅ ⟨id, now, account⟩ :=
  (KeptBehind.head ⟨id, now, account⟩ (snapshots.without id)).take (horderly.nodup_cons rfl) hroom

end Snapshots
end AccountAccess
