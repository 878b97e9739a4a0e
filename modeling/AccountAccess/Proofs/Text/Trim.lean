import AccountAccess.Text.Blank
import Mathlib.Data.List.DropRight

/-!
# What trimming leaves

A text is a run of blank characters, the trimmed text and another run of blank characters, and
the trimmed text itself neither begins nor ends with a blank one.  There is only one way to cut
a text like this, so the trimmed text is described without the order in which the two ends are
cut off.

The two cuts do not disturb each other: what is left after the second one is a beginning of what
was left after the first, so it begins with the same character, unless nothing is left at all.

## Main definitions and results

* `IsTrimmed`, `TrimsTo`: a text with no blank character at either end, and what trimming leaves.
* `trimChars_append_append`: a trimmed text is trimmed from every run of blanks around it.
* `trimChars_eq_iff`: trimming leaves what it should, and nothing else can be left.
* `trimChars_trimChars`: trimming twice is trimming once.
* `trim_eq_empty_iff`: nothing is left of a blank text, and something of any other.
-/

namespace AccountAccess
namespace Text

variable {cs word before after : List Char} {c : Char}

/-- A run of blank characters. -/
def AllBlank (cs : List Char) : Prop :=
  ∀ c ∈ cs, isBlank c = true

/-- A text with no blank character at either end. -/
structure IsTrimmed (word : List Char) : Prop where
  head : ∀ c ∈ word.head?, isBlank c = false
  last : ∀ c ∈ word.getLast?, isBlank c = false

/-- **What trimming leaves of a text**: a trimmed text from which the given one differs by blank
characters around it. -/
structure TrimsTo (cs word : List Char) : Prop extends IsTrimmed word where
  padded : ∃ before after, AllBlank before ∧ AllBlank after ∧ cs = before ++ word ++ after

theorem IsTrimmed.of_forall (h : ∀ c ∈ word, isBlank c = false) : IsTrimmed word :=
  ⟨fun c hc => h c (List.mem_of_mem_head? hc), fun c hc => h c (List.mem_of_mem_getLast? hc)⟩

/-! ## One end -/

theorem trimRight_eq (cs : List Char) : trimRight cs = (trimLeft cs.reverse).reverse := rfl

theorem trimLeft_append (hbefore : AllBlank before) : trimLeft (before ++ cs) = trimLeft cs :=
  List.dropWhile_append_of_pos hbefore

theorem trimLeft_eq_self (h : ∀ c ∈ cs.head?, isBlank c = false) : trimLeft cs = cs := by
  cases cs with
  | nil => rfl
  | cons c cs => exact List.dropWhile_cons_of_neg (by simp [h c rfl])

theorem isBlank_of_mem_head?_trimLeft (hc : c ∈ (trimLeft cs).head?) : isBlank c = false := by
  have hhead := List.head?_dropWhile_not isBlank cs
  rw [trimLeft, Option.mem_def] at hc
  rwa [hc] at hhead

theorem exists_append_trimLeft (cs : List Char) :
    ∃ before, AllBlank before ∧ cs = before ++ trimLeft cs :=
  ⟨cs.takeWhile isBlank, fun _ hc => List.mem_takeWhile_imp hc,
    List.takeWhile_append_dropWhile.symm⟩

theorem trimRight_append (hafter : AllBlank after) : trimRight (cs ++ after) = trimRight cs := by
  have hreverse : AllBlank after.reverse := fun c hc => hafter c (List.mem_reverse.1 hc)
  rw [trimRight_eq, List.reverse_append, trimLeft_append hreverse, ← trimRight_eq]

theorem trimRight_eq_self (h : ∀ c ∈ cs.getLast?, isBlank c = false) : trimRight cs = cs := by
  rw [List.getLast?_eq_head?_reverse] at h
  rw [trimRight_eq, trimLeft_eq_self h, List.reverse_reverse]

theorem isBlank_of_mem_getLast?_trimRight (hc : c ∈ (trimRight cs).getLast?) :
    isBlank c = false := by
  rw [trimRight_eq, List.getLast?_reverse] at hc
  exact isBlank_of_mem_head?_trimLeft hc

theorem exists_trimRight_append (cs : List Char) :
    ∃ after, AllBlank after ∧ cs = trimRight cs ++ after := by
  obtain ⟨before, hbefore, hcs⟩ := exists_append_trimLeft cs.reverse
  refine ⟨before.reverse, fun c hc => hbefore c (List.mem_reverse.1 hc), ?_⟩
  rw [trimRight_eq, ← List.reverse_append, ← hcs, List.reverse_reverse]

/-! ## Both ends -/

/-- A trimmed text is trimmed from every run of blank characters around it. -/
theorem trimChars_append_append (hbefore : AllBlank before) (hword : IsTrimmed word)
    (hafter : AllBlank after) : trimChars (before ++ word ++ after) = word := by
  rw [trimChars, List.append_assoc, trimLeft_append hbefore]
  cases word with
  | nil =>
    have hnone : trimLeft after = [] := List.dropWhile_eq_nil_iff.2 hafter
    rw [List.nil_append, hnone]
    rfl
  | cons c word =>
    have hhead : ∀ d ∈ (c :: word ++ after).head?, isBlank d = false := hword.head
    rw [trimLeft_eq_self hhead, trimRight_append hafter, trimRight_eq_self hword.last]

theorem isTrimmed_trimChars (cs : List Char) : IsTrimmed (trimChars cs) := by
  refine ⟨fun c hc => ?_, fun c hc => isBlank_of_mem_getLast?_trimRight hc⟩
  have hprefix : trimChars cs <+: trimLeft cs := List.rdropWhile_prefix isBlank (trimLeft cs)
  obtain ⟨after, hafter⟩ := hprefix
  have hhead : c ∈ (trimLeft cs).head? := by
    rw [← hafter, List.head?_append, Option.mem_def.1 hc]
    rfl
  exact isBlank_of_mem_head?_trimLeft hhead

/-- Trimming leaves what it should, and nothing else can be left. -/
theorem trimChars_eq_iff : trimChars cs = word ↔ TrimsTo cs word := by
  constructor
  · rintro rfl
    obtain ⟨before, hbefore, hleft⟩ := exists_append_trimLeft cs
    obtain ⟨after, hafter, hright⟩ := exists_trimRight_append (trimLeft cs)
    refine ⟨isTrimmed_trimChars cs, before, after, hbefore, hafter, ?_⟩
    rw [trimChars, List.append_assoc, ← hright, ← hleft]
  · rintro ⟨hword, before, after, hbefore, hafter, rfl⟩
    exact trimChars_append_append hbefore hword hafter

theorem trimsTo_trim (s : String) : TrimsTo s.toList (trim s).toList :=
  trimChars_eq_iff.1 (toList_trim s).symm

/-- **Trimming twice is trimming once.** -/
@[simp] theorem trimChars_trimChars (cs : List Char) : trimChars (trimChars cs) = trimChars cs :=
  trimChars_eq_iff.2 ⟨isTrimmed_trimChars cs, [], [], by simp [AllBlank], by simp [AllBlank],
    by simp⟩

@[simp] theorem trim_trim (s : String) : trim (trim s) = trim s := by
  rw [trim, toList_trim, trimChars_trimChars, ← trim]

theorem isBlankText_iff {s : String} : isBlankText s = true ↔ AllBlank s.toList :=
  List.all_eq_true

/-- **Nothing is left of a blank text**, and something of any other. -/
theorem trim_eq_empty_iff {s : String} : trim s = "" ↔ isBlankText s = true := by
  rw [← String.toList_eq_nil_iff, toList_trim, trimChars_eq_iff, isBlankText_iff]
  constructor
  · rintro ⟨-, before, after, hbefore, hafter, hs⟩
    rw [hs, List.append_nil]
    intro c hc
    rcases List.mem_append.1 hc with hc | hc
    · exact hbefore c hc
    · exact hafter c hc
  · intro hblank
    refine ⟨⟨by simp, by simp⟩, s.toList, [], hblank, by simp [AllBlank], ?_⟩
    rw [List.append_nil, List.append_nil]

end Text
end AccountAccess
