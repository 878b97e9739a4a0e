import AccountAccess.Text.Integer
import Mathlib.Logic.Basic

/-!
# Which texts are read as an integer

The grammar is a sign that may be missing, followed by at least one ASCII digit and by nothing
else.  `IsLiteral` states it with the value, so leading zeros and a plus sign are in it, and the
reader finds an integer exactly if the text is a literal of it.

A sign is no digit.  Hence the three forms exclude each other: the reader, which looks at the
first character only, takes the right one.

## Main results

* `IsNumeral`, `readNatural?_eq_some_iff`: texts of digits, and what they are read as.
* `IsLiteral`, `readInteger?_eq_some_iff`: the grammar, for integers without bound.
* `readInt64?_eq_some_iff`: the same for 64-bit integers, of which only those in range have
  literals.
-/

namespace AccountAccess
namespace Text

variable {cs digits : List Char} {n : Nat} {i : Int}

/-! ## The grammar -/

/-- A numeral: at least one ASCII digit and nothing else. -/
structure IsNumeral (digits : List Char) (n : Nat) : Prop where
  ne_nil : digits ≠ []
  isDigit : ∀ c ∈ digits, c.isDigit = true
  value : Nat.ofDigitChars 10 digits 0 = n

/-- A literal of an integer: a numeral, after a sign or not. -/
inductive IsLiteral : List Char → Int → Prop where
  | unsigned {digits : List Char} {n : Nat} (hnumeral : IsNumeral digits n) : IsLiteral digits n
  | plus {digits : List Char} {n : Nat} (hnumeral : IsNumeral digits n) :
      IsLiteral ('+' :: digits) n
  | minus {digits : List Char} {n : Nat} (hnumeral : IsNumeral digits n) :
      IsLiteral ('-' :: digits) (-n)

/-! ## Numerals -/

theorem naturalOfDigits?_eq_some_iff : naturalOfDigits? cs = some n ↔ IsNumeral cs n := by
  rw [naturalOfDigits?, Option.ite_none_right_eq_some, List.all_eq_true, Option.some.injEq]
  constructor
  · rintro ⟨⟨hne, hdigits⟩, hvalue⟩
    exact ⟨hne, hdigits, hvalue⟩
  · rintro ⟨hne, hdigits, hvalue⟩
    exact ⟨⟨hne, hdigits⟩, hvalue⟩

theorem IsNumeral.head_ne {sign : Char} (h : IsNumeral (sign :: digits) n) :
    sign ≠ '+' ∧ sign ≠ '-' := by
  have hdigit : sign.isDigit = true := h.isDigit sign List.mem_cons_self
  constructor
  · rintro rfl
    exact absurd hdigit (by decide)
  · rintro rfl
    exact absurd hdigit (by decide)

theorem readNatural?_eq_some_iff : readNatural? cs = some n ↔
    IsNumeral cs n ∨ ∃ digits, cs = '+' :: digits ∧ IsNumeral digits n := by
  unfold readNatural?
  split
  · rename_i digits
    rw [naturalOfDigits?_eq_some_iff]
    constructor
    · intro hnumeral
      exact Or.inr ⟨digits, rfl, hnumeral⟩
    · rintro (hnumeral | ⟨_, ⟨⟩, hnumeral⟩)
      · exact absurd rfl hnumeral.head_ne.1
      · exact hnumeral
  · rename_i hplus
    rw [naturalOfDigits?_eq_some_iff]
    constructor
    · exact Or.inl
    · rintro (hnumeral | ⟨digits, rfl, -⟩)
      · exact hnumeral
      · exact absurd rfl (hplus digits)

/-! ## Literals -/

theorem readInteger?_eq_some_iff : readInteger? cs = some i ↔ IsLiteral cs i := by
  unfold readInteger?
  split
  · rename_i digits
    constructor
    · intro hread
      obtain ⟨j, hj, rfl⟩ := Option.map_eq_some_iff.1 hread
      obtain ⟨n, hnatural, hn⟩ := Option.bind_eq_some_iff.1 hj
      obtain rfl : (n : Int) = j := Option.some.inj hn
      exact .minus (naturalOfDigits?_eq_some_iff.1 hnatural)
    · intro hliteral
      cases hliteral with
      | unsigned hnumeral => exact absurd rfl hnumeral.head_ne.2
      | minus hnumeral =>
        rw [naturalOfDigits?_eq_some_iff.2 hnumeral]
        rfl
  · rename_i hminus
    simp only [Option.map_eq_some_iff, readNatural?_eq_some_iff]
    constructor
    · rintro ⟨n, hnumeral | ⟨digits, rfl, hnumeral⟩, rfl⟩
      · exact .unsigned hnumeral
      · exact .plus hnumeral
    · intro hliteral
      cases hliteral with
      | unsigned hnumeral => exact ⟨_, Or.inl hnumeral, rfl⟩
      | plus hnumeral => exact ⟨_, Or.inr ⟨_, rfl, hnumeral⟩, rfl⟩
      | minus hnumeral => exact absurd rfl (hminus _)

theorem IsLiteral.sign_or_isDigit {c : Char} (h : IsLiteral cs i) (hc : c ∈ cs) :
    c = '+' ∨ c = '-' ∨ c.isDigit = true := by
  cases h with
  | unsigned hnumeral => exact Or.inr (Or.inr (hnumeral.isDigit c hc))
  | plus hnumeral =>
    exact (List.mem_cons.1 hc).imp_right fun hc => Or.inr (hnumeral.isDigit c hc)
  | minus hnumeral =>
    exact Or.inr ((List.mem_cons.1 hc).imp_right (hnumeral.isDigit c))

/-- **A text is read as a 64-bit integer exactly if it is a literal of it.**  A literal of an
integer out of range is none of any 64-bit integer, so that it is refused. -/
theorem readInt64?_eq_some_iff {s : String} {i : Int64} :
    readInt64? s = some i ↔ IsLiteral s.toList i.toInt := by
  rw [readInt64?, ← readInteger?_eq_some_iff]
  constructor
  · intro hread
    obtain ⟨j, hinteger, hrange⟩ := Option.bind_eq_some_iff.1 hread
    obtain ⟨⟨hlow, hhigh⟩, hj⟩ := Option.ite_none_right_eq_some.1 hrange
    obtain rfl : Int64.ofInt j = i := Option.some.inj hj
    have hvalue : (Int64.ofInt j).toInt = j := Int64.toInt_ofInt_of_le hlow (by
      have hmax : Int64.maxValue.toInt = 2 ^ 63 - 1 := by decide
      omega)
    rw [hinteger, hvalue]
  · intro hinteger
    rw [hinteger, Option.bind_some, if_pos ⟨i.minValue_le_toInt, i.toInt_le⟩, Int64.ofInt_toInt]

/-- Zeros in front and a plus sign do not change what is read. -/
example : readInt64? "+0042" = some 42 ∧ readInt64? "-0" = some 0 ∧ readInt64? "+-1" = none := by
  decide

end Text
end AccountAccess
