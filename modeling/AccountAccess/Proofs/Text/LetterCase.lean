import Mathlib.Data.Char
import Mathlib.Tactic.SplitIfs

/-!
# Capital and small letters

Only the letters from `A` to `Z` have two cases, and the numbers of the two differ by 32.  Texts
that agree in small letters agree in capital letters as well.

This is the letter case of ASCII.  A character of another script is left as it is by both maps, even
where its script has two cases of its own.

## Main results

* `toNat_toLower`, `toNat_toUpper`: both maps as functions of the number of a character.
* `map_toUpper_congr`: texts that agree in small letters agree in capital letters.
-/

namespace AccountAccess
namespace Text

variable {cs ds : List Char}

/-! ## Characters by their numbers -/

theorem le_iff_toNat_le {c d : Char} : c ≤ d ↔ c.toNat ≤ d.toNat := by
  rw [Char.le_def, UInt32.le_iff_toNat_le]
  rfl

/-- The number of a character in small letters. -/
theorem toNat_toLower (c : Char) :
    c.toLower.toNat = if 65 ≤ c.toNat ∧ c.toNat ≤ 90 then c.toNat + 32 else c.toNat := by
  have hupper : (c.val ≥ 'A'.val ∧ c.val ≤ 'Z'.val) ↔ (65 ≤ c.toNat ∧ c.toNat ≤ 90) :=
    and_congr le_iff_toNat_le le_iff_toNat_le
  by_cases h : c.val ≥ 'A'.val ∧ c.val ≤ 'Z'.val
  · have hbound := hupper.1 h
    rw [show c.toLower = _ from dif_pos h, if_pos hbound]
    show (c.val + 32).toNat = c.toNat + 32
    have hval : c.val.toNat = c.toNat := rfl
    rw [UInt32.toNat_add, hval]
    show (c.toNat + 32) % 4294967296 = c.toNat + 32
    omega
  · rw [show c.toLower = c from dif_neg h, if_neg (hupper.not.1 h)]

/-- The number of a character in capital letters. -/
theorem toNat_toUpper (c : Char) :
    c.toUpper.toNat = if 97 ≤ c.toNat ∧ c.toNat ≤ 122 then c.toNat - 32 else c.toNat := by
  have hlower : (c.val ≥ 'a'.val ∧ c.val ≤ 'z'.val) ↔ (97 ≤ c.toNat ∧ c.toNat ≤ 122) :=
    and_congr le_iff_toNat_le le_iff_toNat_le
  by_cases h : c.val ≥ 'a'.val ∧ c.val ≤ 'z'.val
  · have hbound := hlower.1 h
    rw [show c.toUpper = _ from dif_pos h, if_pos hbound]
    show (c.val + ('A'.val - 'a'.val)).toNat = c.toNat - 32
    have hval : c.val.toNat = c.toNat := rfl
    -- Taking 32 away is adding its complement, with the carry dropped.
    rw [UInt32.toNat_add, hval, show ('A'.val - 'a'.val).toNat = 4294967264 from rfl]
    omega
  · rw [show c.toUpper = c from dif_neg h, if_neg (hlower.not.1 h)]

theorem toUpper_toLower (c : Char) : c.toLower.toUpper = c.toUpper := by
  have hnat : c.toLower.toUpper.toNat = c.toUpper.toNat := by
    rw [toNat_toUpper, toNat_toUpper, toNat_toLower]
    split_ifs <;> omega
  exact Char.toNat_inj.1 hnat

theorem map_toUpper_congr (h : cs.map Char.toLower = ds.map Char.toLower) :
    cs.map Char.toUpper = ds.map Char.toUpper := by
  have hupper : ∀ cs : List Char, (cs.map Char.toLower).map Char.toUpper = cs.map Char.toUpper := by
    intro cs
    rw [List.map_map]
    exact List.map_congr_left fun c _ => toUpper_toLower c
  rw [← hupper cs, h, hupper ds]

end Text
end AccountAccess
