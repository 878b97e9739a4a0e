import AccountAccess.Password.Policy
import AccountAccess.Proofs.Password.Key
import Mathlib.Algebra.Order.BigOperators.Group.List
import Mathlib.Data.Char
import Mathlib.Data.Set.Card

/-!
# The passwords that may be chosen

Four sets of characters decide which passwords may be chosen.  No two of them meet, so the class
that a character is sorted into is the only one it is in, and counting classes is counting which
of the sets a password draws on.  Nothing of this looks at the order of the characters.

For the hash two facts about the sets matter.  The zero character is in none of them, and all
their characters lie below 0x800, so that none takes more than two bytes.  Hence a chosen password
is far shorter than the 72 bytes that count, and the zero byte behind it is the only one: it marks
the end, and the key determines the password.

The length of a password is counted in characters and that of a key in bytes.  The middle dot is the
one character of the sets for which the two differ.

## Main results

* `classOf?_eq_some_iff`: a character is sorted into the class whose set it is in.
* `classCount_eq`: the classes that are counted are those that the text draws on.
* `FollowsRule`, `isStrong_iff`: the rule, and that it decides what may be chosen.
* `FollowsRule.perm`: the rule does not look at the order of the characters.
* `FollowsRule.fitsKey`: a password that follows the rule fits the key.
* `isStrong_by_rule`: all of this, and that no two such passwords share a key.
-/

namespace AccountAccess
namespace Password

variable {cs ds : List Char} {c : Char} {k : CharClass} {password other : String}

/-! ## Classes of characters -/

/-- The characters of a class. -/
def CharClass.chars : CharClass → Set Char
  | capital => Set.Icc 'A' 'Z'
  | small => Set.Icc 'a' 'z'
  | digit => Set.Icc '0' '9'
  | symbol => {c | c ∈ symbols}

/-- **A character is sorted into the class whose set it is in.**  The sets are tried in turn, and
none of them meets one that is tried before it. -/
theorem classOf?_eq_some_iff : classOf? c = some k ↔ c ∈ k.chars := by
  have hsymbols : symbols.all (fun c => classOf? c == some .symbol) = true := by decide +kernel
  constructor
  · intro h
    unfold classOf? at h
    split_ifs at h with hcapital hsmall hdigit hsymbol
    · obtain rfl := Option.some.inj h
      exact hcapital
    · obtain rfl := Option.some.inj h
      exact hsmall
    · obtain rfl := Option.some.inj h
      exact hdigit
    · obtain rfl := Option.some.inj h
      exact hsymbol
  · intro h
    cases k with
    | capital => exact if_pos h
    | small =>
      have hcapital : ¬('A' ≤ c ∧ c ≤ 'Z') := fun hc => absurd (h.1.trans hc.2) (by decide)
      rw [classOf?, if_neg hcapital]
      exact if_pos h
    | digit =>
      have hcapital : ¬('A' ≤ c ∧ c ≤ 'Z') := fun hc => absurd (hc.1.trans h.2) (by decide)
      have hsmall : ¬('a' ≤ c ∧ c ≤ 'z') := fun hc => absurd (hc.1.trans h.2) (by decide)
      rw [classOf?, if_neg hcapital, if_neg hsmall]
      exact if_pos h
    | symbol => exact beq_iff_eq.1 (List.all_eq_true.1 hsymbols c h)

theorem isSome_classOf?_iff : (classOf? c).isSome = true ↔ ∃ k : CharClass, c ∈ k.chars := by
  simp only [Option.isSome_iff_exists, classOf?_eq_some_iff]

/-- The classes that a text draws on. -/
def classesIn (cs : List Char) : Set CharClass :=
  {k | ∃ c ∈ cs, c ∈ k.chars}

theorem classesIn_congr (h : ∀ c, c ∈ cs ↔ c ∈ ds) : classesIn cs = classesIn ds := by
  simp only [classesIn, h]

/-- **The classes that are counted are those that the text draws on.** -/
theorem classCount_eq (cs : List Char) : classCount cs = (classesIn cs).ncard := by
  have hoccurs : ∀ k, (cs.any fun c => classOf? c == some k) = true ↔ k ∈ classesIn cs := by
    intro k
    simp only [List.any_eq_true, beq_iff_eq, classOf?_eq_some_iff]
    rfl
  have hall : ∀ k, k ∈ CharClass.all := by
    intro k
    cases k with
    | _ => decide
  have hnodup : (CharClass.all.filter fun k => cs.any fun c => classOf? c == some k).Nodup :=
    List.Nodup.filter _ (by decide)
  have hset : classesIn cs =
      ((CharClass.all.filter fun k => cs.any fun c => classOf? c == some k).toFinset : Set _) := by
    ext k
    rw [List.coe_toFinset, Set.mem_ofPred_eq, List.mem_filter, hoccurs, and_iff_right (hall k)]
  rw [hset, Set.ncard_coe_finset, List.toFinset_card_of_nodup hnodup, classCount]

/-! ## The rule -/

/-- The rule for passwords: eight to twenty characters, each in one of the sets, and at least
three of the sets drawn on. -/
structure FollowsRule (password : String) : Prop where
  length : password.length ∈ Set.Icc 8 20
  drawn : ∀ c ∈ password.toList, ∃ k : CharClass, c ∈ k.chars
  varied : 3 ≤ (classesIn password.toList).ncard

/-- **The passwords that may be chosen are those that follow the rule.** -/
theorem isStrong_iff : isStrong password = true ↔ FollowsRule password := by
  simp only [isStrong, Bool.and_eq_true, decide_eq_true_eq, List.all_eq_true, isSome_classOf?_iff,
    classCount_eq, String.length_toList]
  constructor
  · rintro ⟨⟨hlength, hdrawn⟩, hvaried⟩
    exact ⟨hlength, hdrawn, hvaried⟩
  · rintro ⟨hlength, hdrawn, hvaried⟩
    exact ⟨⟨hlength, hdrawn⟩, hvaried⟩

theorem FollowsRule.perm (h : FollowsRule password) (hperm : password.toList.Perm other.toList) :
    FollowsRule other := by
  obtain ⟨hlength, hdrawn, hvaried⟩ := h
  rw [← String.length_toList, hperm.length_eq, String.length_toList] at hlength
  rw [classesIn_congr fun c => hperm.mem_iff] at hvaried
  exact ⟨hlength, fun c hc => hdrawn c (hperm.mem_iff.2 hc), hvaried⟩

theorem isStrong_perm (hperm : password.toList.Perm other.toList) :
    isStrong password = isStrong other := by
  rw [Bool.eq_iff_iff, isStrong_iff, isStrong_iff]
  exact ⟨fun h => h.perm hperm, fun h => h.perm hperm.symm⟩

/-! ## Bytes -/

/-- The characters of the sets are not zero, and take two bytes at the most. -/
theorem toNat_of_mem_chars (h : c ∈ k.chars) : 0 < c.toNat ∧ c.toNat < 0x800 := by
  have hsymbols : symbols.all (fun c => 0 < c.toNat ∧ c.toNat < 0x800) = true := by decide +kernel
  have hrange : ∀ first last : Char, 0 < first.toNat → last.toNat < 0x800 →
      c ∈ Set.Icc first last → 0 < c.toNat ∧ c.toNat < 0x800 := by
    rintro first last hfirst hlast ⟨hlow, hhigh⟩
    exact ⟨hfirst.trans_le hlow, lt_of_le_of_lt hhigh hlast⟩
  cases k with
  | capital => exact hrange 'A' 'Z' (by decide) (by decide) h
  | small => exact hrange 'a' 'z' (by decide) (by decide) h
  | digit => exact hrange '0' '9' (by decide) (by decide) h
  | symbol => exact of_decide_eq_true (List.all_eq_true.1 hsymbols c h)

theorem utf8Size_le_two (h : c.toNat < 0x800) : c.utf8Size ≤ 2 := by
  have hval : c.val.toNat = c.toNat := rfl
  rw [← String.length_utf8EncodeChar]
  unfold String.utf8EncodeChar
  simp only [hval]
  split
  · exact Nat.le_succ 1
  · rw [if_pos (by omega)]
    exact le_refl 2

/-- A password that follows the rule has no more than forty bytes. -/
theorem FollowsRule.length_toBytes_le (h : FollowsRule password) :
    (Text.toBytes password).length ≤ 40 := by
  have hsize : ∀ size ∈ password.toList.map Char.utf8Size, size ≤ 2 := by
    intro size hsize
    obtain ⟨c, hc, rfl⟩ := List.mem_map.1 hsize
    obtain ⟨k, hk⟩ := h.drawn c hc
    exact utf8Size_le_two (toNat_of_mem_chars hk).2
  calc
    (Text.toBytes password).length = (password.toList.map Char.utf8Size).sum := by
      simp only [Text.toBytes_eq_flatMap, List.length_flatMap, String.length_utf8EncodeChar]
    _ ≤ (password.toList.map Char.utf8Size).length * 2 := List.sum_le_card_nsmul _ 2 hsize
    _ = password.length * 2 := by rw [List.length_map, String.length_toList]
    _ ≤ 40 := Nat.mul_le_mul_right 2 h.length.2

/-- **A password that follows the rule fits the key.** -/
theorem FollowsRule.fitsKey (h : FollowsRule password) : FitsKey password := by
  refine ⟨h.length_toBytes_le.trans_lt (by decide), ?_⟩
  rw [Text.zero_mem_toBytes_iff]
  rintro ⟨c, hc, hzero⟩
  obtain ⟨k, hk⟩ := h.drawn c hc
  exact absurd hzero (toNat_of_mem_chars hk).1.ne'

/-- **Which passwords may be chosen, and what the hash makes of them.**  They are those that follow
the rule, in any order of their characters; the middle dot is one of the symbols.  Each of them
fits the key, and no two have the same bytes that count, nor the same words of the key. -/
theorem isStrong_by_rule :
    (∀ password, isStrong password = true ↔ FollowsRule password) ∧
    '·' ∈ CharClass.symbol.chars ∧
    (∀ password other : String, password.toList.Perm other.toList →
      isStrong password = isStrong other) ∧
    (∀ password, isStrong password = true → FitsKey password) ∧
    ∀ password other, isStrong password = true → isStrong other = true → password ≠ other →
      keyBytes password ≠ keyBytes other ∧
        keyWords (keyBytes password) ≠ keyWords (keyBytes other) := by
  have hfits : ∀ password, isStrong password = true → FitsKey password :=
    fun password h => (isStrong_iff.1 h).fitsKey
  have hdot : '·' ∈ symbols := by decide +kernel
  refine ⟨fun _ => isStrong_iff, hdot, fun _ _ => isStrong_perm, hfits, ?_⟩
  intro password other hstrong hstrong' hne
  have hwords : keyWords (keyBytes password) ≠ keyWords (keyBytes other) := fun hsame =>
    hne (eq_of_keyWords_eq (hfits password hstrong) (hfits other hstrong') hsame)
  exact ⟨fun hsame => hwords (congrArg keyWords hsame), hwords⟩

theorem isStrong_by_rule_dots :
    isStrong "Ab··················" = true ∧ isStrong "··················Ab" = true ∧
      FitsKey "Ab··················" ∧
      keyBytes "Ab··················" ≠ keyBytes "··················Ab" := by
  have hstrong : isStrong "Ab··················" = true := by decide +kernel
  obtain ⟨-, -, hperm, hfits, hkeys⟩ := isStrong_by_rule
  have hstrong' : isStrong "··················Ab" = true := by
    rw [← hperm "Ab··················" "··················Ab" (by decide +kernel), hstrong]
  exact ⟨hstrong, hstrong', hfits _ hstrong, (hkeys _ _ hstrong hstrong' (by decide)).1⟩

end Password
end AccountAccess
