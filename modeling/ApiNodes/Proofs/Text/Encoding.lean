import ApiNodes.Text.Encoding
import Mathlib.Tactic.Common

namespace ApiNodes.Text

/-!
# Texts in UTF-8

The bytes of a text in UTF-8 are not zero unless it has null characters, so that its first bytes
never tell another encoding.

* `toList_toUTF8`, `ne_zero_of_mem_toUTF8` — the bytes of a text;
* `encodingOf?_of_ne_zero` — what they tell;
* `decode?_toUTF8` — and what they are read as.
-/

variable {s : String} {c : Char} {b : UInt8} {data : List UInt8}

/-! ### Bytes -/

/-- No byte of a character is zero, unless it is the null character. -/
theorem forall_mem_utf8EncodeChar (hc : c ≠ Char.ofNat 0) :
    ∀ b ∈ String.utf8EncodeChar c, b ≠ 0 := by
  have hcode : c.val.toNat ≠ 0 := fun h => hc (Char.toNat_inj.mp h)
  have hbyte {n : Nat} (hpos : n ≠ 0) (hn : n < 256) : UInt8.ofNat n ≠ 0 := by
    intro h
    have hzero := congrArg UInt8.toNat h
    rw [UInt8.toNat_ofNat', Nat.mod_eq_of_lt hn] at hzero
    exact hpos hzero
  unfold String.utf8EncodeChar
  dsimp only
  split_ifs with hone htwo hthree
  -- one byte is the code, and of several each has its highest bit
  · exact List.forall_mem_singleton.mpr (hbyte hcode (by omega))
  · exact List.forall_mem_cons.mpr ⟨hbyte (by omega) (by omega),
      List.forall_mem_singleton.mpr (hbyte (by omega) (by omega))⟩
  · exact List.forall_mem_cons.mpr ⟨hbyte (by omega) (by omega),
      List.forall_mem_cons.mpr ⟨hbyte (by omega) (by omega),
        List.forall_mem_singleton.mpr (hbyte (by omega) (by omega))⟩⟩
  · exact List.forall_mem_cons.mpr ⟨hbyte (by omega) (by omega),
      List.forall_mem_cons.mpr ⟨hbyte (by omega) (by omega),
        List.forall_mem_cons.mpr ⟨hbyte (by omega) (by omega),
          List.forall_mem_singleton.mpr (hbyte (by omega) (by omega))⟩⟩⟩

/-- A row of bytes is listed from a place on. -/
theorem toList_loop_eq (bs : ByteArray) (i : Nat) (r : List UInt8) :
    ByteArray.toList.loop bs i r = r.reverse ++ bs.data.toList.drop i := by
  fun_induction ByteArray.toList.loop bs i r with
  | case1 i r hlt ih =>
    have hlength : i < bs.data.toList.length := by simpa using hlt
    have hget : bs.get! i = bs.data.toList[i] := getElem!_pos bs.data i hlt
    rw [ih, List.drop_eq_getElem_cons hlength, hget, List.reverse_cons, List.append_assoc,
      List.singleton_append]
  | case2 i r hge =>
    rw [List.drop_eq_nil_of_le (by simpa using hge), List.append_nil]

/-- **The bytes of a text** are those of its characters. -/
theorem toList_toUTF8 (s : String) : s.toUTF8.toList = s.toList.flatMap String.utf8EncodeChar := by
  have hdata : s.toUTF8.data = (s.toList.flatMap String.utf8EncodeChar).toArray := by
    rw [String.toUTF8_eq_toByteArray, ← String.utf8Encode_toList, List.utf8Encode,
      List.data_toByteArray]
  rw [ByteArray.toList, toList_loop_eq, hdata]
  rfl

/-- No byte of a text without null characters is zero. -/
theorem ne_zero_of_mem_toUTF8 (h : Char.ofNat 0 ∉ s.toList) (hb : b ∈ s.toUTF8.toList) :
    b ≠ 0 := by
  rw [toList_toUTF8] at hb
  obtain ⟨c, hc, hb⟩ := List.mem_flatMap.mp hb
  exact forall_mem_utf8EncodeChar (ne_of_mem_of_not_mem hc h) b hb

/-! ### Encodings -/

/-- **Bytes that are not zero** are taken for UTF-8, or tell nothing if they are too few. -/
theorem encodingOf?_of_ne_zero (h : ∀ b ∈ data, b ≠ 0) :
    encodingOf? data = none ∨ encodingOf? data = some .utf8 := by
  have hfalse : data.map (· == 0) = List.replicate data.length false := by
    rw [List.eq_replicate_iff]
    exact ⟨List.length_map .., List.forall_mem_map.mpr fun b hb => beq_false_of_ne (h b hb)⟩
  rw [encodingOf?, hfalse]
  match data.length with
  | 0 | 1 | 2 | 3 => exact .inl rfl
  | n + 4 => exact .inr rfl

/-- **A text in UTF-8** is read as the text. -/
theorem decode?_toUTF8 (s : String) : Encoding.utf8.decode? s.toUTF8.toList = some s := by
  have hbytes : (⟨s.toUTF8.toList.toArray⟩ : ByteArray) = s.toUTF8 := by
    rw [ByteArray.toList, toList_loop_eq]
    rfl
  have hvalid : s.toUTF8.IsValidUTF8 := s.isValidUTF8
  rw [Encoding.decode?, hbytes, String.fromUTF8?, dif_pos hvalid]
  rfl

end ApiNodes.Text
