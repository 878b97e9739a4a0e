import AccountAccess.Proofs.Text.LetterCase
import AccountAccess.Text.Hex
import Mathlib.Order.Interval.Set.Defs
import Mathlib.Tactic.IntervalCases

/-!
# Hexadecimal digits in either letter case

Writing gives small letters, and reading accepts either case.  So a text is read as some bytes
exactly if its small letters are what is written for them.  Nothing else is read: the number of
digits is even because each byte has two, and no other character has a value.

All of it rests on single digits, where characters are compared by their numbers.

## Main results

* `hexValue?_eq_some_iff`: a character has the value of the digit that it is in small letters.
* `length_hexChars`, `map_toLower_hexChars`: what is written has two digits for each byte, in small
  letters.
* `digits_of_map_toLower_eq`: a text whose small letters are written for some bytes consists of
  digits.
* `bytesOfHex?_eq_some_iff`: which texts are read as some bytes.
-/

namespace AccountAccess
namespace Text

variable {c : Char} {n : Nat}

/-! ## One digit -/

theorem toNat_hexDigit (h : n < 16) :
    (hexDigit n).toNat = if n < 10 then 48 + n else 87 + n := by
  interval_cases n <;> rfl

/-- **A character has the value of the digit that it is in small letters.** -/
theorem hexValue?_eq_some_iff : hexValue? c = some n ↔ n < 16 ∧ c.toLower = hexDigit n := by
  have hdigit : ('0' ≤ c ∧ c ≤ '9') ↔ (48 ≤ c.toNat ∧ c.toNat ≤ 57) := by
    rw [le_iff_toNat_le, le_iff_toNat_le]
    rfl
  have hsmall : ('a' ≤ c ∧ c ≤ 'f') ↔ (97 ≤ c.toNat ∧ c.toNat ≤ 102) := by
    rw [le_iff_toNat_le, le_iff_toNat_le]
    rfl
  have hcapital : ('A' ≤ c ∧ c ≤ 'F') ↔ (65 ≤ c.toNat ∧ c.toNat ≤ 70) := by
    rw [le_iff_toNat_le, le_iff_toNat_le]
    rfl
  have hvalue : hexValue? c =
      if 48 ≤ c.toNat ∧ c.toNat ≤ 57 then some (c.toNat - 48)
      else if 97 ≤ c.toNat ∧ c.toNat ≤ 102 then some (c.toNat - 97 + 10)
      else if 65 ≤ c.toNat ∧ c.toNat ≤ 70 then some (c.toNat - 65 + 10)
      else none := by
    simp only [hexValue?, hdigit, hsmall, hcapital]
    rfl
  rw [hvalue]
  constructor
  · intro h
    have hn : n < 16 := by
      split_ifs at h <;> simp only [Option.some.injEq] at h <;> omega
    refine ⟨hn, Char.toNat_inj.1 ?_⟩
    rw [toNat_toLower, toNat_hexDigit hn]
    split_ifs at h <;> simp only [Option.some.injEq] at h <;> split_ifs <;> omega
  · rintro ⟨hn, hlower⟩
    have hnumber := congrArg Char.toNat hlower
    rw [toNat_toLower, toNat_hexDigit hn] at hnumber
    -- A number in none of the three ranges is that of no digit, in small letters or not.
    by_cases hdecimal : 48 ≤ c.toNat ∧ c.toNat ≤ 57
    · rw [if_pos hdecimal, Option.some.injEq]
      split_ifs at hnumber <;> omega
    rw [if_neg hdecimal]
    by_cases hletter : 97 ≤ c.toNat ∧ c.toNat ≤ 102
    · rw [if_pos hletter, Option.some.injEq]
      split_ifs at hnumber <;> omega
    have hlarge : 65 ≤ c.toNat ∧ c.toNat ≤ 70 := by
      split_ifs at hnumber <;> omega
    rw [if_neg hletter, if_pos hlarge, Option.some.injEq]
    split_ifs at hnumber <;> omega

/-- The hexadecimal digits in either letter case. -/
def hexDigits : Set Char :=
  Set.Icc '0' '9' ∪ Set.Icc 'a' 'f' ∪ Set.Icc 'A' 'F'

theorem mem_hexDigits_of_hexValue? (h : hexValue? c = some n) : c ∈ hexDigits := by
  unfold hexValue? at h
  split_ifs at h with hdecimal hsmall hcapital
  · exact Or.inl (Or.inl hdecimal)
  · exact Or.inl (Or.inr hsmall)
  · exact Or.inr hcapital

/-! ## Bytes -/

theorem toNat_ofNat_halves {high low : Nat} (hhigh : high < 16) (hlow : low < 16) :
    (UInt8.ofNat (16 * high + low)).toNat = 16 * high + low := by
  show (16 * high + low) % 256 = 16 * high + low
  omega

theorem length_hexChars (bytes : List UInt8) : (hexChars bytes).length = 2 * bytes.length := by
  induction bytes with
  | nil => rfl
  | cons byte bytes ih =>
    rw [hexChars, List.length_cons, List.length_cons, ih, List.length_cons, Nat.mul_succ]

/-- Nothing but digits is written. -/
theorem exists_eq_hexDigit_of_mem {bytes : List UInt8} (h : c ∈ hexChars bytes) :
    ∃ n < 16, c = hexDigit n := by
  induction bytes with
  | nil => exact absurd h List.not_mem_nil
  | cons byte bytes ih =>
    have hbyte : byte.toNat < 256 := byte.toNat_lt
    rcases List.mem_cons.1 h with rfl | h
    · exact ⟨byte.toNat / 16, by omega, rfl⟩
    · rcases List.mem_cons.1 h with rfl | h
      · exact ⟨byte.toNat % 16, by omega, rfl⟩
      · exact ih h

/-- Writing gives small letters. -/
theorem map_toLower_hexChars (bytes : List UInt8) :
    (hexChars bytes).map Char.toLower = hexChars bytes := by
  have hsmall : ∀ n < 16, (hexDigit n).toLower = hexDigit n := by decide
  calc
    (hexChars bytes).map Char.toLower = (hexChars bytes).map id := by
      refine List.map_congr_left fun c hc => ?_
      obtain ⟨n, hn, rfl⟩ := exists_eq_hexDigit_of_mem hc
      exact hsmall n hn
    _ = hexChars bytes := List.map_id _

/-- **A text whose small letters are written for some bytes consists of digits**, two for each
byte. -/
theorem digits_of_map_toLower_eq {cs : List Char} {bytes : List UInt8}
    (h : cs.map Char.toLower = hexChars bytes) :
    cs.length = 2 * bytes.length ∧ ∀ c ∈ cs, c ∈ hexDigits := by
  refine ⟨?_, fun c hc => ?_⟩
  · rw [← length_hexChars, ← h, List.length_map]
  · have hmem : c.toLower ∈ hexChars bytes := h ▸ List.mem_map_of_mem hc
    obtain ⟨n, hn, hdigit⟩ := exists_eq_hexDigit_of_mem hmem
    exact mem_hexDigits_of_hexValue? (hexValue?_eq_some_iff.2 ⟨hn, hdigit⟩)

/-- **A text is read as some bytes exactly if its small letters are their written form.** -/
theorem bytesOfHex?_eq_some_iff {cs : List Char} {bytes : List UInt8} :
    bytesOfHex? cs = some bytes ↔ cs.map Char.toLower = hexChars bytes := by
  induction cs using bytesOfHex?.induct generalizing bytes with
  | case1 =>
    cases bytes with
    | nil => simp [bytesOfHex?, hexChars]
    | cons byte bytes => simp [bytesOfHex?, hexChars]
  | case2 c =>
    cases bytes with
    | nil => simp [bytesOfHex?, hexChars]
    | cons byte bytes => simp [bytesOfHex?, hexChars]
  | case3 high low cs ih =>
    have hread : bytesOfHex? (high :: low :: cs) = some bytes ↔
        ∃ h, hexValue? high = some h ∧ ∃ l, hexValue? low = some l ∧
          ∃ rest, bytesOfHex? cs = some rest ∧ UInt8.ofNat (16 * h + l) :: rest = bytes := by
      simp [bytesOfHex?, Option.bind_eq_some_iff]
    rw [hread]
    simp only [hexValue?_eq_some_iff, ih, List.map_cons]
    constructor
    · rintro ⟨h, ⟨hh, hhigh⟩, l, ⟨hl, hlow⟩, rest, hrest, rfl⟩
      have hhead : (16 * h + l) / 16 = h := by omega
      have hlast : (16 * h + l) % 16 = l := by omega
      rw [hexChars, toNat_ofNat_halves hh hl, hhead, hlast, hhigh, hlow, hrest]
    · intro hwritten
      cases bytes with
      | nil => exact absurd hwritten (by simp [hexChars])
      | cons byte rest =>
        rw [hexChars, List.cons.injEq, List.cons.injEq] at hwritten
        obtain ⟨hhigh, hlow, hrest⟩ := hwritten
        have hbyte : byte.toNat < 256 := byte.toNat_lt
        refine ⟨byte.toNat / 16, ⟨by omega, hhigh⟩, byte.toNat % 16, ⟨by omega, hlow⟩, rest,
          hrest, ?_⟩
        have hwhole : 16 * (byte.toNat / 16) + byte.toNat % 16 = byte.toNat := by omega
        rw [hwhole, UInt8.ofNat_toNat]

end Text
end AccountAccess
