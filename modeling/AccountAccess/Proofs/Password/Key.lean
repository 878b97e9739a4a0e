import AccountAccess.Password.Bcrypt
import AccountAccess.Proofs.Text.Bytes
import Mathlib.Algebra.Group.Nat.Defs
import Mathlib.Data.List.GetD
import Mathlib.Tactic.WLOG

/-!
# Which passwords share a key

The cipher is keyed with 18 words.  They are filled with the bytes that count, repeated as often
as needed, so different passwords could share a key in two ways: they differ only behind the bytes
that count, or one is the other repeated.

Neither happens to passwords that have no zero byte and are short enough to leave room for the one
that is added.  Nothing of them is cut off, and the zero byte stands for the first time where the
password ends, so the words tell its length as well as its bytes.

## The shape of the argument

* A word is a fold over four bytes, and the fold is injective for as many bytes as there is room for
  (`eq_of_wordOf_eq`).
* So equal words give equal *repeated* bytes at the first 72 positions
  (`repeated_eq_of_keyWords_eq`).
* Of two passwords with their zero bytes the shorter one has its zero where the other has none,
  unless they are equally long (`eq_of_repeated_eq`).

## Main result

* `eq_of_keyWords_eq`: no two passwords that fit share a key.
-/

namespace AccountAccess
namespace Password

variable {password : String} {bytes other front back : List UInt8} {position : Nat}

/-! ## The bytes that count -/

/-- A password with all its bytes among those that count, and none of them zero. -/
structure FitsKey (password : String) : Prop where
  length_lt : (Text.toBytes password).length < 72
  zero_notMem : 0 ∉ Text.toBytes password

theorem FitsKey.keyBytes_eq (h : FitsKey password) :
    keyBytes password = Text.toBytes password ++ [0] := by
  have hlength : (Text.toBytes password ++ [0]).length ≤ 72 := by
    rw [List.length_append, List.length_singleton]
    exact h.length_lt
  rw [keyBytes, List.take_of_length_le hlength]

/-! ## Words -/

/-- The word that some bytes make, the first one in front. -/
def wordOf (byte : Nat → UInt8) (count : Nat) : UInt32 :=
  (List.range count).foldl (fun w j => (w <<< 8) ||| (byte j).toUInt32) 0

theorem wordOf_succ (byte : Nat → UInt8) (count : Nat) :
    wordOf byte (count + 1) = (wordOf byte count <<< 8) ||| (byte count).toUInt32 := by
  rw [wordOf, List.range_succ, List.foldl_append]
  rfl

theorem toNat_shiftLeft_or {w : UInt32} (h : w.toNat < 2 ^ 24) (byte : UInt8) :
    ((w <<< 8) ||| byte.toUInt32).toNat = 2 ^ 8 * w.toNat + byte.toNat := by
  have hbyte : byte.toNat < 2 ^ 8 := byte.toNat_lt
  have hshift : (w <<< 8).toNat = 2 ^ 8 * w.toNat := by
    rw [UInt32.toNat_shiftLeft]
    show w.toNat <<< 8 % 2 ^ 32 = 2 ^ 8 * w.toNat
    rw [Nat.shiftLeft_eq]
    omega
  rw [UInt32.toNat_or, hshift, UInt8.toNat_toUInt32, Nat.two_pow_add_eq_or_of_lt hbyte]

theorem toNat_wordOf_lt (byte : Nat → UInt8) {count : Nat} (h : count ≤ 4) :
    (wordOf byte count).toNat < 2 ^ (8 * count) := by
  induction count with
  | zero => exact Nat.one_pos
  | succ count ih =>
    have hlt := ih (by omega)
    have hroom : 2 ^ (8 * count) ≤ 2 ^ 24 := Nat.pow_le_pow_right (by decide) (by omega)
    have hbyte : (byte count).toNat < 2 ^ 8 := (byte count).toNat_lt
    rw [wordOf_succ, toNat_shiftLeft_or (Nat.lt_of_lt_of_le hlt hroom), Nat.mul_succ, Nat.pow_add]
    omega

/-- **A word determines the bytes that it is made of.** -/
theorem eq_of_wordOf_eq {byte byte' : Nat → UInt8} {count : Nat} (hcount : count ≤ 4)
    (h : wordOf byte count = wordOf byte' count) : ∀ j < count, byte j = byte' j := by
  induction count with
  | zero => simp
  | succ count ih =>
    have hroom : ∀ b, (wordOf b count).toNat < 2 ^ 24 := fun b =>
      Nat.lt_of_lt_of_le (toNat_wordOf_lt b (by omega))
        (Nat.pow_le_pow_right (by decide) (by omega))
    have hvalue := congrArg UInt32.toNat h
    rw [wordOf_succ, wordOf_succ, toNat_shiftLeft_or (hroom byte),
      toNat_shiftLeft_or (hroom byte')] at hvalue
    have hbyte : (byte count).toNat < 2 ^ 8 := (byte count).toNat_lt
    have hbyte' : (byte' count).toNat < 2 ^ 8 := (byte' count).toNat_lt
    have hlast : byte count = byte' count := UInt8.toNat_inj.1 (by omega)
    have hfirst : wordOf byte count = wordOf byte' count := UInt32.toNat_inj.1 (by omega)
    intro j hj
    rcases Nat.lt_succ_iff_lt_or_eq.1 hj with hj | rfl
    · exact ih (by omega) hfirst j hj
    · exact hlast

/-! ## Repeated bytes -/

/-- The byte at a position when some bytes are repeated without end. -/
def repeated (bytes : List UInt8) (position : Nat) : UInt8 :=
  bytes.getD (position % bytes.length) 0

theorem repeated_of_lt (h : position < bytes.length) :
    repeated bytes position = bytes[position] := by
  rw [repeated, Nat.mod_eq_of_lt h, List.getD_eq_getElem _ _ h]

theorem getElem_keyWords (bytes : List UInt8) (i : Nat) (h : i < 18) :
    (keyWords bytes)[i] = wordOf (fun j => repeated bytes (4 * i + j)) 4 := by
  simp only [keyWords, Vector.getElem_ofFn, wordOf, repeated, Array.getD_eq_getD_getElem?,
    List.getElem?_toArray, List.size_toArray, List.getD_eq_getElem?_getD]

/-- **The words tell the repeated bytes**, as far as there are words. -/
theorem repeated_eq_of_keyWords_eq (h : keyWords bytes = keyWords other) (hlt : position < 72) :
    repeated bytes position = repeated other position := by
  have hword : position / 4 < 18 := by omega
  have hmade := getElem_keyWords bytes (position / 4) hword
  have hmade' := getElem_keyWords other (position / 4) hword
  rw [h, hmade'] at hmade
  have hbyte := eq_of_wordOf_eq (Nat.le_refl 4) hmade (position % 4) (Nat.mod_lt _ (by decide))
  simp only [Nat.div_add_mod] at hbyte
  exact hbyte.symm

/-- **Repeated bytes with a zero only at their end tell where they end.** -/
theorem eq_of_repeated_eq (hfront : front.length < 72) (hback : back.length < 72)
    (hzero : 0 ∉ front) (hzero' : 0 ∉ back)
    (h : ∀ position < 72, repeated (front ++ [0]) position = repeated (back ++ [0]) position) :
    front = back := by
  wlog hle : front.length ≤ back.length generalizing front back
  · exact (this hback hfront hzero' hzero (fun position hlt => (h position hlt).symm)
      (by omega)).symm
  have hsame : ∀ (position : Nat) (hf : position < (front ++ [0]).length)
      (hb : position < (back ++ [0]).length),
      (front ++ [0])[position] = (back ++ [0])[position] := by
    intro position hf hb
    rw [← repeated_of_lt hf, ← repeated_of_lt hb]
    rw [List.length_append, List.length_singleton] at hf
    exact h position (by omega)
  -- Where the shorter one has its zero, the longer one has a byte of its own.
  have hlength : front.length = back.length := by
    refine Nat.le_antisymm hle (Nat.le_of_not_lt fun hlt => ?_)
    have hend := hsame front.length (by simp) (by simp; omega)
    rw [List.getElem_append_right (Nat.le_refl _), List.getElem_append_left hlt] at hend
    exact hzero' (List.mem_of_getElem (by simpa using hend.symm))
  have hkeys : front ++ [0] = back ++ [0] :=
    List.ext_getElem (by rw [List.length_append, List.length_append, hlength]) hsame
  exact List.append_cancel_right hkeys

/-! ## Keys -/

/-- **No two passwords that fit share a key**: the words of the key determine the password. -/
theorem eq_of_keyWords_eq {password other : String} (hfits : FitsKey password)
    (hfits' : FitsKey other) (h : keyWords (keyBytes password) = keyWords (keyBytes other)) :
    password = other := by
  rw [hfits.keyBytes_eq, hfits'.keyBytes_eq] at h
  exact Text.toBytes_injective (eq_of_repeated_eq hfits.length_lt hfits'.length_lt
    hfits.zero_notMem hfits'.zero_notMem fun _ => repeated_eq_of_keyWords_eq h)

end Password
end AccountAccess
