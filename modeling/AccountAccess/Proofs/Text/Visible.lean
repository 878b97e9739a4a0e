import AccountAccess.Proofs.Text.Bytes
import AccountAccess.Text.Blank
import Mathlib.Data.List.Basic

/-!
# Lines of bytes that can be read

The bytes of a line stand for one character each, as long as all of them are visible ASCII
characters, blanks or tabs; a line with any other byte stands for no text.  Among these bytes
the blanks and tabs are the ones whose characters are blank, so a line can be trimmed before
it is read as well as after.  Trimming takes no byte away that cannot be read.

A text of such characters is read from its UTF-8 form, which has one byte for each of them.

## Main results

* `visible?_eq_some_iff`, `visible?_eq_none_iff`: which lines stand for a text.
* `ofByte_injective`, `isBlank_ofByte`: the character of a byte, and when it is blank.
* `visible?_toBytes`: a text of visible characters and blanks is read from its bytes.
* `trimChars_map_ofByte`: a line can be trimmed before it is read.
* `isVisible_of_trimBytes`: trimming keeps what cannot be read.
-/

namespace AccountAccess
namespace Text

variable {byte : UInt8} {bytes : List UInt8} {text : String} {c : Char}

/-- A byte that stands for a character: a visible ASCII character, a blank or a tab. -/
def IsVisible (byte : UInt8) : Prop :=
  (0x20 ≤ byte ∧ byte ≤ 0x7E) ∨ byte = 9

instance : DecidablePred IsVisible :=
  fun _ => inferInstanceAs (Decidable (_ ∨ _))

/-- The character that a byte stands for. -/
def ofByte (byte : UInt8) : Char :=
  Char.ofNat byte.toNat

/-! ## Which lines stand for a text -/

theorem all_isVisible_iff :
    (bytes.all fun b => (0x20 ≤ b && b ≤ 0x7E) || b == 9) = true ↔
      ∀ byte ∈ bytes, IsVisible byte := by
  simp [IsVisible]

theorem visible?_eq_some_iff : visible? bytes = some text ↔
    (∀ byte ∈ bytes, IsVisible byte) ∧ String.ofList (bytes.map ofByte) = text := by
  rw [← all_isVisible_iff, visible?, show (fun b : UInt8 => Char.ofNat b.toNat) = ofByte from rfl]
  split
  · rename_i hall
    simp [hall]
  · rename_i hnot
    simp [hnot]

theorem visible?_eq_none_iff :
    visible? bytes = none ↔ ¬∀ byte ∈ bytes, IsVisible byte := by
  rw [← all_isVisible_iff, visible?]
  split
  · rename_i hall
    simp [hall]
  · rename_i hnot
    simp [hnot]

/-! ## The character of a byte -/

theorem toNat_ofByte (byte : UInt8) : (ofByte byte).toNat = byte.toNat := by
  have hlt : byte.toNat < 256 := byte.toNat_lt
  have hvalid : byte.toNat.isValidChar := Or.inl (by omega)
  rw [ofByte, Char.ofNat, dif_pos hvalid]
  rfl

theorem ofByte_injective : Function.Injective ofByte := by
  intro byte other h
  have htoNat := congrArg Char.toNat h
  rw [toNat_ofByte, toNat_ofByte] at htoNat
  exact UInt8.toNat_inj.1 htoNat

/-- A blank or a tab. -/
def isSpacing (byte : UInt8) : Bool :=
  byte == 0x20 || byte == 9

theorem isVisible_of_isSpacing (h : isSpacing byte = true) : IsVisible byte := by
  rw [isSpacing, Bool.or_eq_true, beq_iff_eq, beq_iff_eq] at h
  rcases h with rfl | rfl
  · decide
  · decide

/-- Of the bytes that stand for a character, the blanks and tabs stand for a blank one. -/
theorem isBlank_ofByte (h : IsVisible byte) : isBlank (ofByte byte) = isSpacing byte := by
  have hspacing : isSpacing byte = true ↔ byte.toNat = 32 ∨ byte.toNat = 9 := by
    simp [isSpacing, ← UInt8.toNat_inj]
  have hvisible : (32 ≤ byte.toNat ∧ byte.toNat ≤ 126) ∨ byte.toNat = 9 := by
    rcases h with ⟨hlow, hhigh⟩ | rfl
    · exact Or.inl ⟨UInt8.le_iff_toNat_le.1 hlow, UInt8.le_iff_toNat_le.1 hhigh⟩
    · exact Or.inr rfl
  rw [Bool.eq_iff_iff, hspacing, isBlank, toNat_ofByte]
  simp only [Bool.or_eq_true, Bool.and_eq_true, decide_eq_true_eq, beq_iff_eq]
  omega

/-! ## Lines made from texts -/

theorem ofByte_ofNat (h : c.toNat ≤ 0x7F) : ofByte (UInt8.ofNat c.toNat) = c := by
  have hnumber : (UInt8.ofNat c.toNat).toNat = c.toNat := Nat.mod_eq_of_lt (by omega)
  rw [ofByte, hnumber, Char.ofNat_toNat]

theorem toBytes_of_ascii (h : ∀ c ∈ text.toList, c.toNat ≤ 0x7F) :
    toBytes text = text.toList.map fun c => UInt8.ofNat c.toNat := by
  rw [toBytes_eq_flatMap, List.map_eq_flatMap]
  exact List.flatMap_congr fun c hc => if_pos (h c hc)

/-- **A text of visible characters and blanks is read from its bytes.** -/
theorem visible?_toBytes (h : ∀ c ∈ text.toList, 0x20 ≤ c.toNat ∧ c.toNat ≤ 0x7E) :
    visible? (toBytes text) = some text := by
  have hascii : ∀ c ∈ text.toList, c.toNat ≤ 0x7F := fun c hc =>
    Nat.le_trans (h c hc).2 (by decide)
  rw [toBytes_of_ascii hascii, visible?_eq_some_iff, List.map_map]
  refine ⟨fun byte hbyte => ?_, ?_⟩
  · obtain ⟨c, hc, rfl⟩ := List.mem_map.1 hbyte
    obtain ⟨hlow, hhigh⟩ := h c hc
    have hnumber : (UInt8.ofNat c.toNat).toNat = c.toNat := Nat.mod_eq_of_lt (by omega)
    refine Or.inl ⟨UInt8.le_iff_toNat_le.2 ?_, UInt8.le_iff_toNat_le.2 ?_⟩
    · rwa [hnumber]
    · rwa [hnumber]
  · have hchars : text.toList.map (ofByte ∘ fun c => UInt8.ofNat c.toNat) = text.toList :=
      calc
        _ = text.toList.map id := List.map_congr_left fun c hc => ofByte_ofNat (hascii c hc)
        _ = text.toList := List.map_id _
    rw [hchars, String.ofList_toList]

/-! ## Trimming -/

/-- The bytes without the blanks and tabs at either end. -/
def trimBytes (bytes : List UInt8) : List UInt8 :=
  ((bytes.dropWhile isSpacing).reverse.dropWhile isSpacing).reverse

/-- A line whose bytes stand for characters begins with as many blank characters as it has
blanks and tabs at its beginning. -/
theorem dropWhile_isBlank_map (h : ∀ byte ∈ bytes, IsVisible byte) :
    (bytes.map ofByte).dropWhile isBlank = (bytes.dropWhile isSpacing).map ofByte := by
  induction bytes with
  | nil => rfl
  | cons byte bytes ih =>
    have hblank := isBlank_ofByte (h byte List.mem_cons_self)
    rw [List.map_cons, List.dropWhile_cons, List.dropWhile_cons, hblank]
    split
    · exact ih fun other hother => h other (List.mem_cons_of_mem byte hother)
    · rfl

/-- **A line can be trimmed before it is read.** -/
theorem trimChars_map_ofByte (h : ∀ byte ∈ bytes, IsVisible byte) :
    trimChars (bytes.map ofByte) = (trimBytes bytes).map ofByte := by
  have hrest : ∀ byte ∈ (bytes.dropWhile isSpacing).reverse, IsVisible byte := by
    intro byte hmem
    exact h byte ((List.dropWhile_suffix isSpacing).mem (List.mem_reverse.1 hmem))
  rw [trimChars, trimLeft, trimRight, dropWhile_isBlank_map h, ← List.map_reverse,
    dropWhile_isBlank_map hrest, ← List.map_reverse]
  rfl

theorem isVisible_of_dropWhile (h : ∀ byte ∈ bytes.dropWhile isSpacing, IsVisible byte) :
    ∀ byte ∈ bytes, IsVisible byte := by
  induction bytes with
  | nil => exact h
  | cons byte bytes ih =>
    rw [List.dropWhile_cons] at h
    split at h
    · rename_i hspacing
      intro other hother
      rcases List.mem_cons.1 hother with rfl | hmem
      · exact isVisible_of_isSpacing hspacing
      · exact ih h other hmem
    · exact h

/-- **Trimming keeps what cannot be read.** -/
theorem isVisible_of_trimBytes (h : ∀ byte ∈ trimBytes bytes, IsVisible byte) :
    ∀ byte ∈ bytes, IsVisible byte := by
  have hback : ∀ byte ∈ (bytes.dropWhile isSpacing).reverse, IsVisible byte :=
    isVisible_of_dropWhile fun byte hmem => h byte (List.mem_reverse.2 hmem)
  exact isVisible_of_dropWhile fun byte hmem => hback byte (List.mem_reverse.2 hmem)

end Text
end AccountAccess
