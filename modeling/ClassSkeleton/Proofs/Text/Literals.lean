namespace ClassSkeleton.Text

/-!
# The characters of a literal

Where every byte of a string is a character, the characters can be read off the bytes. To compute
with a literal in a proof, that is much shorter than to decode it.
-/

theorem ofList_cons (c : Char) (text : List Char) :
    String.ofList (c :: text) = String.singleton c ++ String.ofList text := by
  rw [String.singleton_eq_ofList, ← String.ofList_append, List.singleton_append]

/-- The characters of a string, as a proof computes them. -/
def chars (s : String) : List Char :=
  if s.toByteArray.data.toList.all fun b => b.toNat < 128 then
    s.toByteArray.data.toList.map fun b => Char.ofNat b.toNat
  else s.toList

/-- A character that is written with bytes below 128 is written with one. -/
theorem map_utf8EncodeChar {c : Char} (h : ∀ b ∈ String.utf8EncodeChar c, b.toNat < 128) :
    (String.utf8EncodeChar c).map (fun b => Char.ofNat b.toNat) = [c] := by
  fun_cases String.utf8EncodeChar c with
  | case1 v hv =>
      have hbyte : (UInt8.ofNat v).toNat = v := by simp [UInt8.toNat_ofNat']; omega
      rw [List.map_singleton, hbyte, List.singleton_inj]
      exact Char.ofNat_toNat c
  | case2 v hv hv' =>
      have hbyte := h _ (by rw [String.utf8EncodeChar, if_neg hv, if_pos hv']; exact List.mem_cons_self)
      rw [UInt8.toNat_ofNat'] at hbyte
      omega
  | case3 v hv hv' hv'' =>
      have hbyte := h _ (by rw [String.utf8EncodeChar, if_neg hv, if_neg hv', if_pos hv'']; exact List.mem_cons_self)
      rw [UInt8.toNat_ofNat'] at hbyte
      omega
  | case4 v hv hv' hv'' =>
      have hbyte := h _ (by rw [String.utf8EncodeChar, if_neg hv, if_neg hv', if_neg hv'']; exact List.mem_cons_self)
      rw [UInt8.toNat_ofNat'] at hbyte
      omega

theorem chars_eq_toList (s : String) : chars s = s.toList := by
  obtain ⟨text, rfl⟩ : ∃ text, s = String.ofList text := ⟨s.toList, String.ofList_toList.symm⟩
  rw [chars, String.toList_ofList, String.toByteArray_ofList, List.utf8Encode,
    List.toList_data_toByteArray]
  split
  · next hall =>
    induction text with
    | nil => rfl
    | cons c text ih =>
        rw [List.flatMap_cons, List.all_append, Bool.and_eq_true] at hall
        rw [List.flatMap_cons, List.map_append, ih hall.2, map_utf8EncodeChar, List.singleton_append]
        simpa using hall.1
  · rfl

end ClassSkeleton.Text
