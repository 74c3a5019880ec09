import LoxLexer.Cli.FileTree
import LoxLexer.Proofs.Source.Spot
import Mathlib.Data.List.Basic

/-!
# Texts as bytes

An input is cut into lines as bytes, a source as characters.  The feed and the
return are single bytes, and no other character has either of them among its
bytes, so the lines of the bytes of a text are the bytes of its lines
(`Lines.ofBytes_utf8`), and each is read back as that line (`Cli.decode_utf8`).
-/

namespace LoxLexer

/-- The bytes of a text. -/
def utf8 (text : List Char) : List UInt8 := text.flatMap String.utf8EncodeChar

@[simp] theorem utf8_nil : utf8 [] = [] := rfl

@[simp] theorem utf8_append (front back : List Char) :
    utf8 (front ++ back) = utf8 front ++ utf8 back :=
  List.flatMap_append

theorem utf8_ne_nil
    {text : List Char}
    (hne : text ≠ []) :
    utf8 text ≠ [] := by
  obtain ⟨c, others, rfl⟩ := List.exists_cons_of_ne_nil hne
  rw [utf8, List.flatMap_cons]
  exact List.append_ne_nil_of_left_ne_nil String.utf8EncodeChar_ne_nil _

/-! ## Byte arrays -/

theorem toList_loop_eq (bytes : ByteArray) (index : Nat) (read : List UInt8) :
    ByteArray.toList.loop bytes index read = read.reverse ++ bytes.data.toList.drop index := by
  -- the loop goes up to the size of the array
  induction hleft : bytes.size - index generalizing index read with
  | zero =>
      have hend : ¬ index < bytes.size := by omega
      rw [ByteArray.toList.loop, if_neg hend, List.drop_eq_nil_of_le, List.append_nil]
      rw [Array.length_toList]
      exact Nat.le_of_not_lt hend
  | succ left ih =>
      have hinside : index < bytes.size := by omega
      have hdata : index < bytes.data.toList.length := hinside
      have hget : bytes.get! index = bytes.data.toList[index] := by
        rw [ByteArray.get!, getElem!_pos bytes.data index hinside]
        rfl
      rw [ByteArray.toList.loop, if_pos hinside, ih _ _ (by omega), hget, List.reverse_cons,
        List.append_assoc, List.singleton_append, List.getElem_cons_drop]

theorem toList_toUTF8 (source : String) : source.toUTF8.toList = utf8 source.toList := by
  have hbytes : source.toUTF8.data.toList = utf8 source.toList := by
    rw [String.toUTF8_eq_toByteArray, ← String.ofList_toList (s := source),
      String.toByteArray_ofList, String.ofList_toList, List.utf8Encode, List.data_toByteArray,
      List.toList_toArray]
    rfl
  rw [ByteArray.toList, toList_loop_eq, hbytes]
  rfl

/-- Bytes of a text are read back as the text. -/
theorem Cli.decode_utf8 (text : List Char) :
    decode ⟨(utf8 text).toArray⟩ = .ok (String.ofList text) := by
  have hbytes : (⟨(utf8 text).toArray⟩ : ByteArray) = text.utf8Encode := by
    rw [List.utf8Encode]
    apply ByteArray.ext
    rw [List.data_toByteArray]
    rfl
  have hvalid : text.utf8Encode.IsValidUTF8 := ByteArray.isValidUTF8_utf8Encode
  rw [decode, hbytes, String.fromUTF8?, dif_pos hvalid]
  rfl

theorem Cli.decode_toUTF8 (source : String) : decode source.toUTF8 = .ok source := by
  have hvalid : source.toUTF8.IsValidUTF8 := source.isValidUTF8
  rw [decode, String.fromUTF8?, dif_pos hvalid]
  rfl

/-! ## Characters of one byte -/

/-- A byte below 128 is a byte of the character with its number only. -/
theorem toNat_eq_of_mem_utf8EncodeChar
    {c : Char} {byte : UInt8}
    (hbyte : byte.toNat < 128)
    (hmem : byte ∈ String.utf8EncodeChar c) :
    c.toNat = byte.toNat := by
  have hlater : ∀ number, 128 ≤ number → number < 256 → byte ≠ UInt8.ofNat number := by
    rintro number hlow hhigh rfl
    rw [UInt8.toNat_ofNat_of_lt' hhigh] at hbyte
    omega
  unfold String.utf8EncodeChar at hmem
  dsimp only at hmem
  split at hmem
  · rename_i hone
    have hsize : c.val.toNat < UInt8.size := Nat.lt_of_le_of_lt hone (by decide)
    rw [List.mem_singleton.mp hmem, UInt8.toNat_ofNat_of_lt' hsize]
    rfl
  · -- the bytes of a longer character are all from 128 on
    exfalso
    split at hmem
    · simp only [List.mem_cons, List.not_mem_nil, or_false] at hmem
      rcases hmem with heq | heq
      · exact hlater _ (by omega) (by omega) heq
      · exact hlater _ (by omega) (by omega) heq
    · split at hmem
      · simp only [List.mem_cons, List.not_mem_nil, or_false] at hmem
        rcases hmem with heq | heq | heq
        · exact hlater _ (by omega) (by omega) heq
        · exact hlater _ (by omega) (by omega) heq
        · exact hlater _ (by omega) (by omega) heq
      · simp only [List.mem_cons, List.not_mem_nil, or_false] at hmem
        rcases hmem with heq | heq | heq | heq
        · exact hlater _ (by omega) (by omega) heq
        · exact hlater _ (by omega) (by omega) heq
        · exact hlater _ (by omega) (by omega) heq
        · exact hlater _ (by omega) (by omega) heq

theorem eq_of_mem_utf8EncodeChar
    {c mark : Char} {byte : UInt8}
    (hbyte : byte.toNat < 128)
    (hmark : mark.toNat = byte.toNat)
    (hmem : byte ∈ String.utf8EncodeChar c) :
    c = mark :=
  Char.toNat_inj.mp ((toNat_eq_of_mem_utf8EncodeChar hbyte hmem).trans hmark.symm)

theorem feed_not_mem_utf8
    {text : List Char}
    (hfeed : '\n' ∉ text) :
    10 ∉ utf8 text := by
  intro hmem
  obtain ⟨c, hc, hbyte⟩ := List.mem_flatMap.mp hmem
  obtain rfl : c = '\n' := eq_of_mem_utf8EncodeChar (by decide) rfl hbyte
  exact hfeed hc

/-! ## Lines of bytes -/

namespace Lines

theorem withoutReturn_utf8 (line : List Char) :
    withoutReturn 13 (utf8 line) = utf8 (withoutReturn '\r' line) := by
  rcases List.eq_nil_or_concat line with rfl | ⟨front, c, rfl⟩
  · rfl
  rw [List.concat_eq_append]
  have hbytes : utf8 (front ++ [c]) = utf8 front ++ String.utf8EncodeChar c := by
    rw [utf8_append, utf8, utf8, List.flatMap_singleton]
  by_cases hreturn : c = '\r'
  · subst hreturn
    have hone : String.utf8EncodeChar '\r' = [13] := rfl
    rw [withoutReturn, withoutReturn, hbytes, hone, List.getLast?_concat,
      List.getLast?_concat, if_pos rfl, if_pos rfl, List.dropLast_concat,
      List.dropLast_concat]
  · have hlast : (utf8 (front ++ [c])).getLast? ≠ some 13 := by
      rw [hbytes, List.getLast?_append_of_ne_nil _ String.utf8EncodeChar_ne_nil]
      intro heq
      exact hreturn (eq_of_mem_utf8EncodeChar (by decide) rfl (List.mem_of_getLast? heq))
    have hkept : (front ++ [c]).getLast? ≠ some '\r' := by
      rw [List.getLast?_concat]
      intro heq
      exact hreturn (Option.some.inj heq)
    rw [withoutReturn, withoutReturn, if_neg hlast, if_neg hkept]

/-- The lines of the bytes of a text are the bytes of its lines. -/
theorem ofBytes_utf8 (text : List Char) :
    ofBytes (utf8 text) = (ofChars text).map utf8 := by
  obtain ⟨front, head, rfl, hfront, hhead⟩ := exists_wholeLines_append text
  induction hfront with
  | nil =>
      rw [List.nil_append]
      by_cases hempty : head = []
      · rw [hempty, utf8_nil, ofBytes, split_nil, ofChars_nil]
        rfl
      · rw [ofBytes, split_of_not_mem (utf8_ne_nil hempty) (feed_not_mem_utf8 hhead),
          ofChars_of_not_mem hempty hhead]
        rfl
  | @cons line rest hline _ ih =>
      have hbytes : utf8 (line ++ '\n' :: rest ++ head) =
          utf8 line ++ 10 :: utf8 (rest ++ head) := by
        rw [List.append_assoc, List.cons_append, utf8_append]
        rfl
      rw [hbytes, ofBytes, split_append_feed (feed_not_mem_utf8 hline), withoutReturn_utf8,
        List.append_assoc, List.cons_append, ofChars_append_feed hline, List.map_cons]
      rw [ofBytes] at ih
      rw [ih]

end Lines
end LoxLexer
