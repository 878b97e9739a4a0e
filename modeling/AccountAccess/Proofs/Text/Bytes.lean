import AccountAccess.Text.Bytes

/-!
# Texts and their UTF-8 forms

The UTF-8 form of a text is a list of bytes from which the text is read back.  The list is that
of the array in which the text is kept, so all that needs a proof is that turning the array into
a list, which goes through its positions one by one, leaves nothing out.

The form is made of those of the characters, one after the other.  A byte of it is zero only for
the zero character: every byte of a longer form has its highest bit set.

## Main results

* `ofBytes?_toBytes`: the UTF-8 form of a text is read as the text.
* `toBytes_injective`: the UTF-8 form determines the text.
* `toBytes_eq_flatMap`: the form is made of those of the characters.
* `zero_mem_toBytes_iff`: a zero byte stands there only for the zero character.
-/

namespace AccountAccess
namespace Text

/-! ## Read back -/

theorem toList_loop (bytes : ByteArray) (i : Nat) (front : List UInt8) :
    ByteArray.toList.loop bytes i front = front.reverse ++ bytes.data.toList.drop i := by
  induction i, front using ByteArray.toList.loop.induct bytes with
  | case1 i front hlt ih =>
    have hlength : i < bytes.data.toList.length := by
      rw [Array.length_toList]
      exact hlt
    have hget : bytes.get! i = bytes.data.toList[i] := by
      rw [Array.getElem_toList]
      exact getElem!_pos bytes.data i hlt
    rw [ByteArray.toList.loop, if_pos hlt, ih, List.reverse_cons, hget, List.append_assoc,
      List.singleton_append, List.getElem_cons_drop]
  | case2 i front hend =>
    have hnone : bytes.data.toList.length ≤ i := by
      rw [Array.length_toList]
      exact Nat.not_lt.1 hend
    rw [ByteArray.toList.loop, if_neg hend, List.drop_eq_nil_of_le hnone, List.append_nil]

theorem toList_eq (bytes : ByteArray) : bytes.toList = bytes.data.toList := by
  rw [ByteArray.toList, toList_loop, List.reverse_nil, List.nil_append, List.drop_zero]

/-- **The UTF-8 form of a text is read as the text.** -/
@[simp] theorem ofBytes?_toBytes (s : String) : ofBytes? (toBytes s) = some s := by
  have hbytes : (⟨(toBytes s).toArray⟩ : ByteArray) = s.toByteArray := by
    rw [toBytes, toList_eq]
    rfl
  rw [ofBytes?, hbytes, String.fromUTF8?, dif_pos s.isValidUTF8]
  rfl

theorem toBytes_injective {s t : String} (h : toBytes s = toBytes t) : s = t := by
  have hread := congrArg ofBytes? h
  rw [ofBytes?_toBytes, ofBytes?_toBytes] at hread
  exact Option.some.inj hread

/-! ## Character by character -/

theorem toBytes_eq_flatMap (s : String) : toBytes s = s.toList.flatMap String.utf8EncodeChar := by
  rw [toBytes, toList_eq, String.toUTF8, ← String.utf8Encode_toList, List.utf8Encode,
    List.toList_data_toByteArray]

theorem ofNat_eq_zero_iff {n : Nat} (h : n < 256) : UInt8.ofNat n = 0 ↔ n = 0 := by
  rw [← UInt8.toNat_inj]
  show n % 256 = 0 ↔ n = 0
  rw [Nat.mod_eq_of_lt h]

/-- Only the zero character has a zero byte. -/
theorem zero_mem_utf8EncodeChar_iff {c : Char} : 0 ∈ String.utf8EncodeChar c ↔ c.toNat = 0 := by
  have hval : c.val.toNat = c.toNat := rfl
  have hrange : c.toNat < 0x110000 := by
    rcases c.valid with h | ⟨-, h⟩
    · exact Nat.lt_trans h (by decide)
    · exact h
  -- A later byte, and the first one of a longer form, carries a mark that is not zero.
  have hmarked : ∀ n mark : Nat, 0 < mark → n + mark < 256 → 0 ≠ UInt8.ofNat (n + mark) := by
    intro n mark hmark hlt hzero
    have hsum := (ofNat_eq_zero_iff hlt).1 hzero.symm
    omega
  unfold String.utf8EncodeChar
  simp only [hval]
  split
  · rename_i hascii
    rw [List.mem_singleton, eq_comm, ofNat_eq_zero_iff (by omega)]
  · rename_i hascii
    refine iff_of_false ?_ (by omega)
    split
    · simp only [List.mem_cons, List.not_mem_nil, or_false, not_or]
      exact ⟨hmarked _ _ (by decide) (by omega), hmarked _ _ (by decide) (by omega)⟩
    · split
      · simp only [List.mem_cons, List.not_mem_nil, or_false, not_or]
        exact ⟨hmarked _ _ (by decide) (by omega), hmarked _ _ (by decide) (by omega),
          hmarked _ _ (by decide) (by omega)⟩
      · simp only [List.mem_cons, List.not_mem_nil, or_false, not_or]
        exact ⟨hmarked _ _ (by decide) (by omega), hmarked _ _ (by decide) (by omega),
          hmarked _ _ (by decide) (by omega), hmarked _ _ (by decide) (by omega)⟩

theorem zero_mem_toBytes_iff {s : String} : 0 ∈ toBytes s ↔ ∃ c ∈ s.toList, c.toNat = 0 := by
  simp only [toBytes_eq_flatMap, List.mem_flatMap, zero_mem_utf8EncodeChar_iff]

end Text
end AccountAccess
