import AccountAccess.Grant.Route
import AccountAccess.Proofs.Text.LetterCase
import Mathlib.Data.List.DropRight

/-!
# Paths under a root

The slashes at the end of a root do not count.  What is left without them is its *base*, the only
text that does not end with a slash and becomes the root when slashes are added.

A path lies under a base if it is the base, or has a slash directly behind it: `/users` does not
lie under `/user`.  Mounting leaves such a path where it is and puts the base in front of any
other one.  As a path begins with a slash, the outcome lies under the base in either case, and
mounting it again changes nothing.

With the empty base no path is changed, and every path lies under it; so that case needs no
argument of its own once it is known that a path begins with a slash.

## Main definitions and results

* `IsBase`, `isBase_iff`: the base of a root, and that trimming leaves it.
* `LiesUnder`, `isUnder_iff`: where a path lies, and the test for it.
* `path_under_of_liesUnder`, `path_under_of_not_liesUnder`: the two cases of mounting.
* `liesUnder_path_under`: a mounted path lies under the base.
* `under_path_under`: mounting a mounted path changes nothing.
* `under_congr`: neither letter case nor slashes at the end of the root count.
-/

namespace AccountAccess
namespace Route

variable {base root path method : String}

/-! ## The base of a root -/

/-- As many slashes as given. -/
def slashes (n : Nat) : String :=
  String.ofList (List.replicate n '/')

/-- The base of a root: the root without the slashes at its end. -/
structure IsBase (base root : String) : Prop where
  last : base.toList.getLast? ≠ some '/'
  padded : ∃ n, root = base ++ slashes n

theorem trimRoot_eq (root : List Char) : trimRoot root = root.rdropWhile (· == '/') := rfl

theorem getLast?_trimRoot (root : List Char) : (trimRoot root).getLast? ≠ some '/' := by
  intro hlast
  have hne : trimRoot root ≠ [] := by
    rintro hnil
    rw [hnil] at hlast
    cases hlast
  have hnot := List.rdropWhile_last_not (· == '/') root hne
  rw [List.getLast?_eq_some_getLast hne, Option.some.injEq] at hlast
  exact hnot (beq_iff_eq.2 hlast)

/-- Trimming a root takes nothing but slashes away.  The root is taken apart from its end, where
the trimming begins. -/
theorem exists_trimRoot_append (root : List Char) :
    ∃ n, root = trimRoot root ++ List.replicate n '/' := by
  induction root using List.reverseRecOn with
  | nil => exact ⟨0, rfl⟩
  | append_singleton root c ih =>
    by_cases hc : c = '/'
    · subst hc
      obtain ⟨n, hn⟩ := ih
      refine ⟨n + 1, ?_⟩
      rw [trimRoot_eq, List.rdropWhile_concat_pos _ _ _ rfl, List.replicate_succ',
        ← List.append_assoc, ← trimRoot_eq, ← hn]
    · refine ⟨0, ?_⟩
      rw [trimRoot_eq, List.rdropWhile_concat_neg _ _ _ (by simpa using hc), List.replicate_zero,
        List.append_nil]

theorem trimRoot_append_slashes {base : List Char} (hlast : base.getLast? ≠ some '/') (n : Nat) :
    trimRoot (base ++ List.replicate n '/') = base := by
  induction n with
  | zero =>
    rw [List.replicate_zero, List.append_nil, trimRoot_eq, List.rdropWhile_eq_self_iff]
    intro hne hslash
    rw [List.getLast?_eq_some_getLast hne, beq_iff_eq.1 hslash] at hlast
    exact hlast rfl
  | succ n ih =>
    rw [List.replicate_succ', ← List.append_assoc, trimRoot_eq,
      List.rdropWhile_concat_pos _ _ _ rfl, ← trimRoot_eq, ih]

/-- **A text is the base of a root exactly if trimming leaves it.** -/
theorem isBase_iff : IsBase base root ↔ trimRoot root.toList = base.toList := by
  constructor
  · rintro ⟨hlast, n, rfl⟩
    rw [String.toList_append, slashes, String.toList_ofList, trimRoot_append_slashes hlast]
  · intro htrim
    obtain ⟨n, hn⟩ := exists_trimRoot_append root.toList
    refine ⟨htrim ▸ getLast?_trimRoot root.toList, n, ?_⟩
    rw [← String.toList_inj, String.toList_append, slashes, String.toList_ofList, ← htrim, ← hn]

theorem isBase_trimRoot (root : String) : IsBase (String.ofList (trimRoot root.toList)) root :=
  isBase_iff.2 (String.toList_ofList).symm

theorem IsBase.unique {other : String} (hbase : IsBase base root) (hother : IsBase other root) :
    other = base := by
  rw [← String.toList_inj, ← isBase_iff.1 hother, isBase_iff.1 hbase]

/-! ## Where a path lies -/

/-- A path as routes have it: it begins with a slash. -/
def IsPath (path : String) : Prop :=
  ∃ rest, path = "/" ++ rest

theorem isPath_iff : IsPath path ↔ path.toList.head? = some '/' := by
  rw [List.head?_eq_some_iff]
  constructor
  · rintro ⟨rest, rfl⟩
    exact ⟨rest.toList, String.toList_append⟩
  · rintro ⟨rest, hpath⟩
    refine ⟨String.ofList rest, String.toList_inj.1 ?_⟩
    simp [hpath]

/-- A path that is the base, or has a slash directly behind it. -/
def LiesUnder (base path : String) : Prop :=
  path = base ∨ ∃ rest, path = base ++ "/" ++ rest

theorem IsPath.liesUnder_append (hpath : IsPath path) (base : String) :
    LiesUnder base (base ++ path) := by
  obtain ⟨rest, rfl⟩ := hpath
  exact Or.inr ⟨rest, (String.append_assoc ..).symm⟩

theorem IsPath.liesUnder_empty (hpath : IsPath path) : LiesUnder "" path := by
  have hunder := hpath.liesUnder_append ""
  rwa [String.empty_append] at hunder

theorem isUnder_iff : isUnder base.toList path.toList = true ↔ LiesUnder base path := by
  rw [isUnder, Bool.and_eq_true, List.isPrefixOf_iff_prefix]
  constructor
  · rintro ⟨⟨below, hbelow⟩, hnext⟩
    rw [← hbelow, List.drop_left, Bool.or_eq_true, List.isEmpty_iff, beq_iff_eq,
      List.head?_eq_some_iff] at hnext
    rcases hnext with rfl | ⟨rest, rfl⟩
    · exact Or.inl (String.toList_inj.1 (by rw [← hbelow, List.append_nil]))
    · refine Or.inr ⟨String.ofList rest, String.toList_inj.1 ?_⟩
      simp [← hbelow]
  · rintro (rfl | ⟨rest, rfl⟩)
    · simp
    · simp [String.append_assoc]

/-! ## Mounting -/

/-- **A path that lies under the base stays where it is**, and so does every path if the base is
empty. -/
theorem path_under_of_liesUnder (hbase : IsBase base root)
    (h : base = "" ∨ LiesUnder base path) : (under root method path).path = path := by
  have hcond : (base.toList.isEmpty || isUnder base.toList path.toList) = true := by
    rw [Bool.or_eq_true, isUnder_iff, List.isEmpty_iff, String.toList_eq_nil_iff]
    exact h
  rw [under, isBase_iff.1 hbase, mount, if_pos hcond, String.ofList_toList]

/-- **Any other path is put behind the base.** -/
theorem path_under_of_not_liesUnder (hbase : IsBase base root)
    (h : ¬(base = "" ∨ LiesUnder base path)) : (under root method path).path = base ++ path := by
  have hcond : ¬(base.toList.isEmpty || isUnder base.toList path.toList) = true := by
    rw [Bool.or_eq_true, isUnder_iff, List.isEmpty_iff, String.toList_eq_nil_iff]
    exact h
  rw [under, isBase_iff.1 hbase, mount, if_neg hcond, String.ofList_append, String.ofList_toList,
    String.ofList_toList]

theorem path_under_append (hbase : IsBase base root) (hpath : IsPath path) :
    (under root method (base ++ path)).path = base ++ path :=
  path_under_of_liesUnder hbase (Or.inr (hpath.liesUnder_append base))

/-- **A mounted path lies under the base.** -/
theorem liesUnder_path_under (hbase : IsBase base root) (hpath : IsPath path) :
    LiesUnder base (under root method path).path := by
  by_cases h : base = "" ∨ LiesUnder base path
  · rw [path_under_of_liesUnder hbase h]
    rcases h with rfl | h
    · exact hpath.liesUnder_empty
    · exact h
  · rw [path_under_of_not_liesUnder hbase h]
    exact hpath.liesUnder_append base

/-- **Mounting a mounted path changes nothing.** -/
theorem under_path_under (hbase : IsBase base root) (hpath : IsPath path) :
    under root method (under root method path).path = under root method path := by
  have hunder : LiesUnder base (under root method path).path := liesUnder_path_under hbase hpath
  have hagain : (under root method (under root method path).path).path =
      (under root method path).path :=
    path_under_of_liesUnder hbase (Or.inr hunder)
  rw [Route.mk.injEq]
  exact ⟨rfl, hagain⟩

/-! ## What does not count -/

/-- Two spellings of a method that differ in letter case only. -/
def SameLetters (method other : String) : Prop :=
  method.toList.map Char.toLower = other.toList.map Char.toLower

/-- **Neither the letter case of the method nor the slashes at the end of the root count.** -/
theorem under_congr {other root' : String} (hmethod : SameLetters other method)
    (hbase : IsBase base root) (hbase' : IsBase base root') :
    under root' other path = under root method path := by
  rw [under, under, Text.map_toUpper_congr hmethod, isBase_iff.1 hbase, isBase_iff.1 hbase']

end Route
end AccountAccess
