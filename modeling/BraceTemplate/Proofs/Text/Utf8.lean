import BraceTemplate.Text.Utf8

/-! # Bytes of a text

The bytes of a text are cut into its characters again, and none of them is given up. A byte between two
texts that belongs to no character is given up alone.
-/
namespace BraceTemplate.Text

theorem utf8DecodeChar?_append (front back : ByteArray) :
    (front ++ back).utf8DecodeChar? front.size = back.utf8DecodeChar? 0 := by
  have hback : (front ++ back).extract front.size (front ++ back).size = back :=
    ByteArray.extract_append_eq_right rfl ByteArray.size_append
  rw [ByteArray.utf8DecodeChar?_eq_utf8DecodeChar?_extract, hback]

theorem utf8CharsFrom_append_utf8Encode (front : ByteArray) (cs : List Char) (back : ByteArray) :
    utf8CharsFrom (front ++ cs.utf8Encode ++ back) front.size =
      cs.map some ++
        utf8CharsFrom (front ++ cs.utf8Encode ++ back) (front ++ cs.utf8Encode).size := by
  induction cs generalizing front with
  | nil => simp
  | cons c cs ih =>
    have hbytes : front ++ (c :: cs).utf8Encode = front ++ [c].utf8Encode ++ cs.utf8Encode := by
      rw [ByteArray.append_assoc, ← List.utf8Encode_append]
      rfl
    have hsize : (front ++ [c].utf8Encode).size = front.size + c.utf8Size := by
      rw [ByteArray.size_append, List.utf8Encode_singleton, List.size_toByteArray,
        String.length_utf8EncodeChar]
    have hlt : front.size < (front ++ (c :: cs).utf8Encode ++ back).size := by
      have := c.utf8Size_pos
      rw [hbytes, ByteArray.size_append, ByteArray.size_append, hsize]
      omega
    have hchar : (front ++ (c :: cs).utf8Encode ++ back).utf8DecodeChar? front.size = some c := by
      rw [hbytes, ByteArray.append_assoc, ByteArray.append_assoc, utf8DecodeChar?_append]
      exact List.utf8DecodeChar?_utf8Encode_singleton_append
    rw [utf8CharsFrom, if_pos hlt, hchar]
    simp only
    rw [hbytes, ← hsize, ih, List.map_cons, List.cons_append]

theorem utf8CharsFrom_size (bytes : ByteArray) : utf8CharsFrom bytes bytes.size = [] := by
  rw [utf8CharsFrom, if_neg (Nat.lt_irrefl _)]

theorem utf8CharsFrom_append_eq_map (front : ByteArray) (cs : List Char) :
    utf8CharsFrom (front ++ cs.utf8Encode) front.size = cs.map some := by
  have h := utf8CharsFrom_append_utf8Encode front cs ByteArray.empty
  rwa [ByteArray.append_empty, utf8CharsFrom_size, List.append_nil] at h

theorem utf8Chars_utf8Encode (cs : List Char) : utf8Chars cs.utf8Encode = cs.map some := by
  have h := utf8CharsFrom_append_eq_map ByteArray.empty cs
  rwa [ByteArray.empty_append] at h

theorem utf8Chars_toUTF8 (text : String) : utf8Chars text.toUTF8 = text.toList.map some := by
  rw [← utf8Chars_utf8Encode, String.utf8Encode_toList]
  rfl

/-- A byte that no character begins with is given up alone, and reading goes on behind it. -/
theorem utf8Chars_append_damaged (front back : List Char) {byte : UInt8}
    (h : ¬ byte.IsUTF8FirstByte) :
    utf8Chars (front.utf8Encode ++ ⟨#[byte]⟩ ++ back.utf8Encode) =
      front.map some ++ none :: back.map some := by
  have hnone : (front.utf8Encode ++ ⟨#[byte]⟩ ++ back.utf8Encode).utf8DecodeChar?
      front.utf8Encode.size = none := by
    rw [ByteArray.append_assoc, utf8DecodeChar?_append]
    refine Option.not_isSome_iff_eq_none.mp fun hsome => h ?_
    have hfirst := ByteArray.isUTF8FirstByte_of_isSome_utf8DecodeChar? hsome
    rwa [ByteArray.getElem_append_left Nat.zero_lt_one] at hfirst
  have hsize : (front.utf8Encode ++ ⟨#[byte]⟩).size = front.utf8Encode.size + 1 :=
    ByteArray.size_append
  have hlt : front.utf8Encode.size < (front.utf8Encode ++ ⟨#[byte]⟩ ++ back.utf8Encode).size := by
    rw [ByteArray.size_append, hsize]
    omega
  have hfront := utf8CharsFrom_append_utf8Encode ByteArray.empty front
    (⟨#[byte]⟩ ++ back.utf8Encode)
  rw [ByteArray.empty_append, ← ByteArray.append_assoc] at hfront
  refine hfront.trans (congrArg _ ?_)
  rw [utf8CharsFrom, if_pos hlt, hnone]
  simp only
  rw [← hsize, utf8CharsFrom_append_eq_map]

end BraceTemplate.Text
