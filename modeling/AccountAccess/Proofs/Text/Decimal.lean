import AccountAccess.Text.Integer
import Mathlib.Algebra.Group.Nat.Defs

/-!
# Decimal numbers read back

The canonical form of a signed 64-bit integer is read as that integer, so the form
determines the integer.  It holds a minus sign and digits only, so no other mark can
be taken for a part of it: a text that is cut at its first colon, or that goes on with
a letter, still tells where the number ends.

The digits are those of the library, so what has to be shown is that the reader, which goes through
them from the front, finds the number that they were made from.  The sign is looked at first, and
the digits of a natural number begin with neither sign.

## Main results

* `readInteger?_toDigits`: the digits of a natural number are read as that number.
* `readInt64?_decimal`: the canonical form of a signed 64-bit integer is read as that integer.
* `decimal_injective`: the canonical form determines the integer.
* `notMem_decimal`: no character but a minus sign and digits stands in it.
-/

namespace AccountAccess
namespace Text

/-! ## Natural numbers -/

theorem naturalOfDigits?_toDigits (n : Nat) :
    naturalOfDigits? (Nat.toDigits 10 n) = some n := by
  have hdigits : (Nat.toDigits 10 n).all Char.isDigit = true :=
    List.all_eq_true.2 fun c hc => Nat.isDigit_of_mem_toDigits (by decide) (by decide) hc
  rw [naturalOfDigits?, if_pos ⟨Nat.toDigits_ne_nil, hdigits⟩, Nat.ofDigitChars_ten_toDigits]

theorem readInteger?_of_head {c : Char} {cs : List Char} (hminus : c ≠ '-') (hplus : c ≠ '+') :
    readInteger? (c :: cs) = (naturalOfDigits? (c :: cs)).map Int.ofNat := by
  rw [readInteger?, readNatural?]
  · rintro ds ⟨⟩
    exact hplus rfl
  · rintro ds ⟨⟩
    exact hminus rfl

/-- The digits of a natural number are read as that number, signs allowed. -/
theorem readInteger?_toDigits (n : Nat) :
    readInteger? (Nat.toDigits 10 n) = some (n : Int) := by
  cases hn : Nat.toDigits 10 n with
  | nil => exact absurd hn Nat.toDigits_ne_nil
  | cons c cs =>
    have hc : c.isDigit = true :=
      Nat.isDigit_of_mem_toDigits (n := n) (by decide) (by decide) (hn ▸ List.mem_cons_self)
    have hminus : c ≠ '-' := by
      rintro rfl
      exact absurd hc (by decide)
    have hplus : c ≠ '+' := by
      rintro rfl
      exact absurd hc (by decide)
    rw [readInteger?_of_head hminus hplus, ← hn, naturalOfDigits?_toDigits]
    rfl

/-! ## Signed numbers -/

/-- The canonical form of an integer is read as that integer. -/
theorem readInteger?_decimalChars (i : Int) : readInteger? (decimalChars i) = some i := by
  rw [decimalChars]
  split
  · rename_i h
    rw [readInteger?, naturalOfDigits?_toDigits]
    have hneg : -(i.natAbs : Int) = i := by omega
    exact congrArg some hneg
  · rename_i h
    have hpos : (i.natAbs : Int) = i := by omega
    rw [readInteger?_toDigits, hpos]

/-- **The canonical form of a signed 64-bit integer is read as that integer.** -/
@[simp] theorem readInt64?_decimal (i : Int64) : readInt64? (decimal i) = some i := by
  have hrange : Int64.minValue.toInt ≤ i.toInt ∧ i.toInt ≤ Int64.maxValue.toInt :=
    ⟨i.minValue_le_toInt, i.toInt_le⟩
  rw [readInt64?, toList_decimal, readInteger?_decimalChars, Option.bind_some, if_pos hrange,
    Int64.ofInt_toInt]

theorem toInt_toInt64 {n : UInt64} (h : n.toNat < 2 ^ 63) : n.toInt64.toInt = n.toNat := by
  rw [Int64.toInt, UInt64.toBitVec_toInt64]
  refine BitVec.toInt_eq_toNat_of_lt ?_
  show 2 * n.toNat < 2 ^ 64
  omega

theorem decimal_eq_decimalNat {i : Int64} {n : Nat} (h : i.toInt = n) :
    decimal i = decimalNat n := by
  have hnonneg : ¬((n : Int) < 0) := by omega
  rw [decimal, decimalNat, h, decimalChars, if_neg hnonneg, Int.natAbs_natCast]

theorem decimal_injective {i j : Int64} (h : decimal i = decimal j) : i = j := by
  have hread := congrArg readInt64? h
  rw [readInt64?_decimal, readInt64?_decimal] at hread
  exact Option.some.inj hread

/-! ## The characters of the canonical form -/

/-- The canonical form consists of a minus sign and digits. -/
theorem eq_minus_or_isDigit_of_mem_decimal {i : Int64} {c : Char}
    (hc : c ∈ (decimal i).toList) : c = '-' ∨ c.isDigit = true := by
  rw [toList_decimal, decimalChars] at hc
  have hdigit : ∀ d ∈ Nat.toDigits 10 i.toInt.natAbs, d.isDigit = true :=
    fun d hd => Nat.isDigit_of_mem_toDigits (by decide) (by decide) hd
  split at hc
  · rcases List.mem_cons.1 hc with rfl | hc
    · exact Or.inl rfl
    · exact Or.inr (hdigit c hc)
  · exact Or.inr (hdigit c hc)

theorem notMem_decimal {c : Char} (hminus : c ≠ '-') (hdigit : c.isDigit = false) (i : Int64) :
    c ∉ (decimal i).toList := by
  intro hc
  rcases eq_minus_or_isDigit_of_mem_decimal hc with h | h
  · exact hminus h
  · exact absurd h (by simp [hdigit])

theorem colon_notMem_decimal (i : Int64) : ':' ∉ (decimal i).toList :=
  notMem_decimal (by decide) (by decide) i

end Text
end AccountAccess
