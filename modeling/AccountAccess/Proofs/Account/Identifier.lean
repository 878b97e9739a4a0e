import AccountAccess.Account.Identifier
import AccountAccess.Proofs.Text.LetterCase
import AccountAccess.Proofs.Text.Trim
import Mathlib.Computability.Language
import Mathlib.Order.CompletePartialOrder
import Mathlib.Order.Interval.Set.Defs

/-!
# Login identifiers are unambiguous

A text that somebody signs in with is looked up in one of three columns.  Which one is found out by
three tests, made one after the other, so the answer could depend on their order: it would, if some
text passed two of them.  Here the three kinds of identifiers are *languages*, made of runs of
characters of one class, and no text is in two of them.

## Why the languages are disjoint

* An address has an at sign, which no phone number and no user name has.
* All characters of a phone number are decimal digits, and a user name has a letter.  The decimal
  digits are those of all scripts, so this needs that no letter is one of them
  (`letters_disjoint`).

So it does not matter in which order a text is tried, and an identifier that is read again is the
same one.

## Why the tests decide the languages

A test for a run of characters is a bound on the length and a property of every character.  The one
test that does more is the one for addresses, which cuts the text twice.  Neither the local part
nor the first label has the mark that ends it; hence the reader, which cuts at the first mark, finds
the parts of which the grammar speaks (`isEmail_iff`, `isDomain_iff`).

## Main results

* `phones`, `addresses`, `userNames`: the three languages, as products of runs.
* `test_iff`: the test for a column decides its language.
* `eq_of_mem_language`: a text is in the language of one column at most.
* `readInOrder?_eq_read?`: the tests can be made in any order.
* `read?_eq_some_iff`, `read?_eq_none_iff`: what the reader answers, said with the languages only.
* `read?_by_grammar`: all of this for every text.
-/

namespace AccountAccess
namespace Identifier

variable {cs : List Char} {c : Char} {characters : Set Char}

/-! ## Classes of characters -/

/-- The ASCII letters. -/
def letters : Set Char := Set.Icc 'a' 'z' ∪ Set.Icc 'A' 'Z'

/-- The ASCII digits. -/
def digits : Set Char := Set.Icc '0' '9'

/-- The decimal digits of all scripts. -/
def decimalDigits : Set Char := {c | Text.isDecimalDigit c = true}

/-- The characters of the local part of an address. -/
def localChars : Set Char := letters ∪ digits ∪ {'_', '.', '+', '-'}

/-- The characters of the first label of a domain. -/
def labelChars : Set Char := letters ∪ digits ∪ {'-'}

/-- The characters of the rest of a domain. -/
def restChars : Set Char := letters ∪ digits ∪ {'.', '-'}

theorem isUpper_iff : c.isUpper = true ↔ c ∈ Set.Icc 'A' 'Z' :=
  decide_eq_true_iff

theorem isLower_iff : c.isLower = true ↔ c ∈ Set.Icc 'a' 'z' := by
  change (decide _ && decide _) = true ↔ 'a' ≤ c ∧ c ≤ 'z'
  simp only [Bool.and_eq_true, decide_eq_true_eq, ge_iff_le, Char.le_def]

theorem isAlpha_iff : c.isAlpha = true ↔ c ∈ letters := by
  change (c.isUpper || c.isLower) = true ↔ _
  rw [Bool.or_eq_true, isUpper_iff, isLower_iff, or_comm, letters, Set.mem_union]

theorem isDigit_iff : c.isDigit = true ↔ c ∈ digits := by
  simp [Char.isDigit, digits, Char.le_def]

theorem isAlphanumeric_iff : isAlphanumeric c = true ↔ c ∈ letters ∪ digits := by
  rw [isAlphanumeric, Bool.or_eq_true, isAlpha_iff, isDigit_iff, Set.mem_union]

theorem isLocalChar_iff : isLocalChar c = true ↔ c ∈ localChars := by
  simp only [isLocalChar, Bool.or_eq_true, isAlphanumeric_iff, beq_iff_eq, localChars,
    Set.mem_union, Set.mem_insert_iff, Set.mem_singleton_iff, or_assoc]

theorem isLabelChar_iff : isLabelChar c = true ↔ c ∈ labelChars := by
  simp only [isLabelChar, Bool.or_eq_true, isAlphanumeric_iff, beq_iff_eq, labelChars,
    Set.mem_union, Set.mem_singleton_iff]

theorem isDomainChar_iff : isDomainChar c = true ↔ c ∈ restChars := by
  simp only [isDomainChar, Bool.or_eq_true, isAlphanumeric_iff, beq_iff_eq, restChars,
    Set.mem_union, Set.mem_insert_iff, Set.mem_singleton_iff, or_assoc, or_comm (a := c = '-')]

theorem digits_subset : digits ⊆ decimalDigits := fun _ hc =>
  Text.isDecimalDigit_of_isDigit (isDigit_iff.2 hc)

/-- A letter is no decimal digit: the first run of decimal digits is that of the ASCII digits, and
the next one lies beyond all ASCII characters. -/
theorem letters_disjoint : Disjoint letters decimalDigits := by
  rw [Set.disjoint_left]
  intro c hletter hdigit
  have hruns : ∀ first ∈ Text.decimalZeros, first = 0x30 ∨ 0x660 ≤ first := by decide
  obtain ⟨first, hfirst, hrange⟩ := List.any_eq_true.1 hdigit
  have hfirst := hruns first hfirst
  simp only [letters, Set.mem_union, Set.mem_Icc, Text.le_iff_toNat_le] at hletter
  have hletter : (97 ≤ c.toNat ∧ c.toNat ≤ 122) ∨ (65 ≤ c.toNat ∧ c.toNat ≤ 90) := hletter
  simp only [Bool.and_eq_true, decide_eq_true_eq] at hrange
  omega

theorem at_notMem_decimalDigits : '@' ∉ decimalDigits := by
  show ¬Text.isDecimalDigit '@' = true
  decide

/-! ## Languages -/

/-- The runs of characters of one class with given lengths. -/
def runs (lengths : Set ℕ) (characters : Set Char) : Language Char :=
  {cs | cs.length ∈ lengths ∧ ∀ c ∈ cs, c ∈ characters}

/-- The phone numbers: a one, a digit from three to nine and nine decimal digits. -/
def phones : Language Char :=
  runs {1} {'1'} * runs {1} (Set.Icc '3' '9') * runs {9} decimalDigits

/-- The e-mail addresses: a local part, an at sign, a label, a point and a rest. -/
def addresses : Language Char :=
  runs (Set.Ici 1) localChars * runs {1} {'@'} * runs (Set.Ici 1) labelChars * runs {1} {'.'} *
    runs (Set.Ici 1) restChars

/-- The user names: four to twenty letters and digits, not all of them digits. -/
def userNames : Language Char :=
  {cs | cs ∈ runs (Set.Icc 4 20) (letters ∪ digits) ∧ ¬∀ c ∈ cs, c ∈ digits}

theorem mem_runs_singleton : cs ∈ runs {1} characters ↔ ∃ c ∈ characters, cs = [c] := by
  constructor
  · rintro ⟨hlength, hmem⟩
    obtain ⟨c, rfl⟩ := List.length_eq_one_iff.1 hlength
    exact ⟨c, hmem c (List.mem_singleton_self c), rfl⟩
  · rintro ⟨c, hc, rfl⟩
    exact ⟨rfl, by simpa using hc⟩

theorem mem_phones_iff : cs ∈ phones ↔ ∃ second ∈ Set.Icc '3' '9', ∃ rest ∈ runs {9} decimalDigits,
    cs = '1' :: second :: rest := by
  simp only [phones, Language.mem_mul, mem_runs_singleton, Set.mem_singleton_iff]
  constructor
  · rintro ⟨_, ⟨_, ⟨_, rfl, rfl⟩, _, ⟨second, hsecond, rfl⟩, rfl⟩, rest, hrest, rfl⟩
    exact ⟨second, hsecond, rest, hrest, rfl⟩
  · rintro ⟨second, hsecond, rest, hrest, rfl⟩
    exact ⟨_, ⟨_, ⟨_, rfl, rfl⟩, _, ⟨second, hsecond, rfl⟩, rfl⟩, rest, hrest, rfl⟩

theorem mem_addresses_iff : cs ∈ addresses ↔ ∃ front domain, cs = front ++ '@' :: domain ∧
    front ∈ runs (Set.Ici 1) localChars ∧ ∃ label rest, domain = label ++ '.' :: rest ∧
      label ∈ runs (Set.Ici 1) labelChars ∧ rest ∈ runs (Set.Ici 1) restChars := by
  simp only [addresses, Language.mem_mul, mem_runs_singleton, Set.mem_singleton_iff]
  constructor
  · rintro ⟨_, ⟨_, ⟨_, ⟨front, hfront, _, ⟨_, rfl, rfl⟩, rfl⟩, label, hlabel, rfl⟩, _,
      ⟨_, rfl, rfl⟩, rfl⟩, rest, hrest, rfl⟩
    exact ⟨front, label ++ '.' :: rest, by simp, hfront, label, rest, rfl, hlabel, hrest⟩
  · rintro ⟨front, _, rfl, hfront, label, rest, rfl, hlabel, hrest⟩
    exact ⟨_, ⟨_, ⟨_, ⟨front, hfront, _, ⟨_, rfl, rfl⟩, rfl⟩, label, hlabel, rfl⟩, _,
      ⟨_, rfl, rfl⟩, rfl⟩, rest, hrest, by simp⟩

/-! ## The tests decide the languages -/

theorem all_iff_mem_runs {test : Char → Bool} (htest : ∀ c, test c = true ↔ c ∈ characters) :
    (!cs.isEmpty && cs.all test) = true ↔ cs ∈ runs (Set.Ici 1) characters := by
  rw [Bool.and_eq_true, Bool.not_eq_true', List.isEmpty_eq_false_iff, ← List.length_pos_iff,
    List.all_eq_true]
  exact and_congr_right fun _ => forall₂_congr fun c _ => htest c

theorem isPhone_iff : isPhone cs = true ↔ cs ∈ phones := by
  rw [mem_phones_iff]
  unfold isPhone
  split
  · rename_i one second rest
    simp only [Bool.and_eq_true, beq_iff_eq, decide_eq_true_eq, List.all_eq_true]
    constructor
    · rintro ⟨⟨⟨rfl, hsecond⟩, hlength⟩, hrest⟩
      exact ⟨second, hsecond, rest, ⟨hlength, hrest⟩, rfl⟩
    · rintro ⟨_, hsecond, _, ⟨hlength, hrest⟩, ⟨⟩⟩
      exact ⟨⟨⟨rfl, hsecond⟩, hlength⟩, hrest⟩
  · rename_i hshort
    refine iff_of_false (by simp) ?_
    rintro ⟨second, -, rest, -, rfl⟩
    exact hshort _ _ _ rfl

theorem isDomain_iff : isDomain cs = true ↔ ∃ label rest, cs = label ++ '.' :: rest ∧
    label ∈ runs (Set.Ici 1) labelChars ∧ rest ∈ runs (Set.Ici 1) restChars := by
  have hpoint : ∀ label ∈ runs (Set.Ici 1) labelChars, '.' ∉ label := fun label hlabel hmem =>
    absurd (isLabelChar_iff.2 (hlabel.2 '.' hmem)) (by decide)
  rw [← Text.exists_splitFirst_iff hpoint, isDomain]
  cases hsplit : Text.splitFirst '.' cs with
  | none => simp
  | some parts =>
    obtain ⟨label, rest⟩ := parts
    dsimp only
    rw [Bool.and_assoc, Bool.and_eq_true, all_iff_mem_runs fun c => isLabelChar_iff,
      all_iff_mem_runs fun c => isDomainChar_iff]
    constructor
    · rintro ⟨hlabel, hrest⟩
      exact ⟨label, rest, rfl, hlabel, hrest⟩
    · rintro ⟨_, _, ⟨⟩, hlabel, hrest⟩
      exact ⟨hlabel, hrest⟩

theorem isEmail_iff : isEmail cs = true ↔ cs ∈ addresses := by
  have hat : ∀ front ∈ runs (Set.Ici 1) localChars, '@' ∉ front := fun front hfront hmem =>
    absurd (isLocalChar_iff.2 (hfront.2 '@' hmem)) (by decide)
  rw [mem_addresses_iff, ← Text.exists_splitFirst_iff hat, isEmail]
  cases hsplit : Text.splitFirst '@' cs with
  | none => simp
  | some parts =>
    obtain ⟨front, domain⟩ := parts
    dsimp only
    rw [Bool.and_eq_true, all_iff_mem_runs fun c => isLocalChar_iff, isDomain_iff]
    constructor
    · rintro ⟨hfront, hdomain⟩
      exact ⟨front, domain, rfl, hfront, hdomain⟩
    · rintro ⟨_, _, ⟨⟩, hfront, hdomain⟩
      exact ⟨hfront, hdomain⟩

theorem isUsername_iff : isUsername cs = true ↔ cs ∈ userNames := by
  have hletters : cs.all isAlphanumeric = true ↔ ∀ c ∈ cs, c ∈ letters ∪ digits := by
    simp only [List.all_eq_true, isAlphanumeric_iff]
  have hdigits : (!cs.all Char.isDigit) = true ↔ ¬∀ c ∈ cs, c ∈ digits := by
    simp only [Bool.not_eq_true', ← Bool.not_eq_true, List.all_eq_true, isDigit_iff]
  rw [isUsername, Bool.and_eq_true, Bool.and_eq_true, Bool.and_eq_true, decide_eq_true_eq,
    decide_eq_true_eq, hletters, hdigits]
  rfl

/-! ## No text is in two of the languages -/

theorem mem_decimalDigits_of_mem_phones (h : cs ∈ phones) : ∀ c ∈ cs, c ∈ decimalDigits := by
  obtain ⟨second, ⟨hthree, hnine⟩, rest, ⟨-, hrest⟩, rfl⟩ := mem_phones_iff.1 h
  have hone : '1' ∈ decimalDigits := digits_subset (by constructor <;> decide)
  have hsecond : second ∈ decimalDigits :=
    digits_subset ⟨Char.le_trans (by decide) hthree, hnine⟩
  simpa [hone, hsecond] using hrest

theorem at_mem_of_mem_addresses (h : cs ∈ addresses) : '@' ∈ cs := by
  obtain ⟨front, domain, rfl, -⟩ := mem_addresses_iff.1 h
  simp

theorem exists_letter_of_mem_userNames (h : cs ∈ userNames) : ∃ c ∈ cs, c ∈ letters := by
  obtain ⟨⟨-, hmem⟩, hdigits⟩ := h
  push Not at hdigits
  obtain ⟨c, hc, hdigit⟩ := hdigits
  exact ⟨c, hc, (hmem c hc).resolve_right hdigit⟩

theorem phones_disjoint_addresses : Disjoint phones addresses :=
  Set.disjoint_left.2 fun _ hphone haddress => at_notMem_decimalDigits
    (mem_decimalDigits_of_mem_phones hphone '@' (at_mem_of_mem_addresses haddress))

theorem phones_disjoint_userNames : Disjoint phones userNames := by
  refine Set.disjoint_left.2 fun cs hphone hname => ?_
  obtain ⟨c, hc, hletter⟩ := exists_letter_of_mem_userNames hname
  exact Set.disjoint_left.1 letters_disjoint hletter
    (mem_decimalDigits_of_mem_phones hphone c hc)

theorem addresses_disjoint_userNames : Disjoint addresses userNames :=
  Set.disjoint_left.2 fun _ haddress hname =>
    absurd (isAlphanumeric_iff.2 (hname.1.2 '@' (at_mem_of_mem_addresses haddress))) (by decide)

/-! ## The order of the tests -/

/-- What a text is tested for: the columns of the account table in which it could be looked up. -/
inductive Column where
  | phone
  | email
  | username

/-- The column in which an identifier is looked up. -/
def column : Identifier → Column
  | phone _ => .phone
  | email _ => .email
  | username _ => .username

namespace Column

/-- The test of a text for a column. -/
def test (cs : List Char) : Column → Bool
  | phone => isPhone cs
  | email => isEmail cs
  | username => isUsername cs

/-- The texts that are looked up in a column. -/
def language : Column → Language Char
  | phone => phones
  | email => addresses
  | username => userNames

/-- The identifier of a text in a column. -/
def identifier : Column → String → Identifier
  | phone => .phone
  | email => .email
  | username => .username

variable {column other : Column}

@[simp] theorem column_identifier (column : Column) (s : String) :
    (column.identifier s).column = column := by
  cases column <;> rfl

@[simp] theorem value_identifier (column : Column) (s : String) :
    (column.identifier s).value = s := by
  cases column <;> rfl

theorem test_iff : test cs column = true ↔ cs ∈ column.language := by
  cases column with
  | phone => exact isPhone_iff
  | email => exact isEmail_iff
  | username => exact isUsername_iff

/-- **A text is looked up in one column only.** -/
theorem eq_of_mem_language (h : cs ∈ column.language) (h' : cs ∈ other.language) :
    column = other := by
  cases column with
  | phone =>
    cases other with
    | phone => rfl
    | email => exact absurd h' (Set.disjoint_left.1 phones_disjoint_addresses h)
    | username => exact absurd h' (Set.disjoint_left.1 phones_disjoint_userNames h)
  | email =>
    cases other with
    | phone => exact absurd h (Set.disjoint_left.1 phones_disjoint_addresses h')
    | email => rfl
    | username => exact absurd h' (Set.disjoint_left.1 addresses_disjoint_userNames h)
  | username =>
    cases other with
    | phone => exact absurd h (Set.disjoint_left.1 phones_disjoint_userNames h')
    | email => exact absurd h (Set.disjoint_left.1 addresses_disjoint_userNames h')
    | username => rfl

/-- **The first test that a text passes is that of its column**, whatever their order. -/
theorem find?_test_eq_some_iff {order : List Column} (horder : ∀ column, column ∈ order) :
    order.find? (test cs) = some column ↔ cs ∈ column.language := by
  refine ⟨fun hfound => test_iff.1 (List.find?_some hfound), fun hlanguage => ?_⟩
  cases hfound : order.find? (test cs) with
  | none =>
    exact absurd (test_iff.2 hlanguage) (List.find?_eq_none.1 hfound column (horder column))
  | some found => rw [eq_of_mem_language (test_iff.1 (List.find?_some hfound)) hlanguage]

/-- The order in which the reader makes its tests. -/
def usual : List Column := [.phone, .email, .username]

theorem mem_usual (column : Column) : column ∈ usual := by
  cases column <;> simp [usual]

end Column

/-! ## Reading -/

section Reading

variable {raw : String} {identifier : Identifier}

/-- The identifier that a text is, when the tests are made in a given order. -/
def readInOrder? (order : List Column) (raw : String) : Option Identifier :=
  (order.find? (Column.test (Text.trim raw).toList)).map (·.identifier (Text.trim raw))

/-- The reader makes the tests in the usual order. -/
theorem readInOrder?_usual (raw : String) : readInOrder? Column.usual raw = read? raw := by
  simp only [readInOrder?, Column.usual, List.find?_cons, Column.test, read?]
  cases isPhone (Text.trim raw).toList with
  | true => rfl
  | false =>
    cases isEmail (Text.trim raw).toList with
    | true => rfl
    | false =>
      cases isUsername (Text.trim raw).toList with
      | true => rfl
      | false => rfl

/-- **A text is read as an identifier of a column exactly if the trimmed text is in the language
of the column.** -/
theorem read?_eq_some_iff : read? raw = some identifier ↔
    (Text.trim raw).toList ∈ identifier.column.language ∧ identifier.value = Text.trim raw := by
  rw [← readInOrder?_usual, readInOrder?, Option.map_eq_some_iff]
  simp only [Column.find?_test_eq_some_iff Column.mem_usual]
  constructor
  · rintro ⟨column, hlanguage, rfl⟩
    rw [Column.column_identifier, Column.value_identifier]
    exact ⟨hlanguage, rfl⟩
  · rintro ⟨hlanguage, hvalue⟩
    refine ⟨identifier.column, hlanguage, ?_⟩
    rw [← hvalue]
    cases identifier <;> rfl

theorem read?_eq_none_iff : read? raw = none ↔
    ∀ column : Column, (Text.trim raw).toList ∉ column.language := by
  rw [← readInOrder?_usual, readInOrder?, Option.map_eq_none_iff, List.find?_eq_none]
  constructor
  · intro h column hlanguage
    exact h column (Column.mem_usual column) (Column.test_iff.2 hlanguage)
  · intro h column _ htest
    exact h column (Column.test_iff.1 htest)

theorem readInOrder?_eq_read? {order : List Column} (horder : ∀ column, column ∈ order) :
    readInOrder? order raw = read? raw := by
  have hfind : order.find? (Column.test (Text.trim raw).toList) =
      Column.usual.find? (Column.test (Text.trim raw).toList) := by
    ext column
    rw [Column.find?_test_eq_some_iff horder, Column.find?_test_eq_some_iff Column.mem_usual]
  rw [← readInOrder?_usual, readInOrder?, hfind, ← readInOrder?]

theorem read?_trim (raw : String) : read? (Text.trim raw) = read? raw := by
  simp only [read?, Text.trim_trim]

/-- **A text is read as an identifier of one kind only.**  What trimming leaves of it is a phone
number, an address, a user name or none of these, and the three languages have no text in common.
So the order of the tests does not matter, and the text of an identifier is read as the same
identifier. -/
theorem read?_by_grammar (raw : String) : ∃ s : String, Text.TrimsTo raw.toList s.toList ∧
    (read? raw = some (.phone s) ↔ s.toList ∈ phones) ∧
    (read? raw = some (.email s) ↔ s.toList ∈ addresses) ∧
    (read? raw = some (.username s) ↔ s.toList ∈ userNames) ∧
    (read? raw = none ↔ s.toList ∉ phones ∧ s.toList ∉ addresses ∧ s.toList ∉ userNames) ∧
    (Disjoint phones addresses ∧ Disjoint phones userNames ∧ Disjoint addresses userNames) ∧
    (∀ order, order.Perm [.phone, .email, .username] → readInOrder? order raw = read? raw) ∧
    (∀ identifier, read? raw = some identifier →
      identifier.value = s ∧ read? identifier.value = some identifier) := by
  refine ⟨Text.trim raw, Text.trimsTo_trim raw, ?_, ?_, ?_, ?_, ?_, fun order horder => ?_,
    fun identifier hread => ?_⟩
  · simp only [read?_eq_some_iff, column, value, Column.language, and_true]
  · simp only [read?_eq_some_iff, column, value, Column.language, and_true]
  · simp only [read?_eq_some_iff, column, value, Column.language, and_true]
  · rw [read?_eq_none_iff]
    constructor
    · intro h
      exact ⟨h .phone, h .email, h .username⟩
    · rintro ⟨hphone, hemail, hname⟩ (_ | _ | _)
      · exact hphone
      · exact hemail
      · exact hname
  · exact ⟨phones_disjoint_addresses, phones_disjoint_userNames, addresses_disjoint_userNames⟩
  · exact readInOrder?_eq_read? fun column => horder.mem_iff.2 (Column.mem_usual column)
  · have hvalue := (read?_eq_some_iff.1 hread).2
    refine ⟨hvalue, ?_⟩
    rw [hvalue, read?_trim, hread]

/-- The digits of a phone number behind the second one may be of any script. -/
example : read? "\t13٤00138000 " = some (.phone "13٤00138000") ∧ read? "1٣800138000" = none := by
  decide +kernel

end Reading

end Identifier
end AccountAccess
