import Mathlib.Data.List.Infix

namespace ClassSkeleton.Text

/-!
# Occurrences

A word can occur across the border of two texts. It does not if a character stands at the border
that the word has not got, or if the word ends in one that the text behind the border has not got.
So occurrences may be counted part by part.
-/

theorem prefix_of_prefix_append {needle front back : List Char} {d : Char} (hd : d ∉ needle)
    (h : needle <+: front ++ d :: back) : needle <+: front := by
  apply List.prefix_of_prefix_length_le h (List.prefix_append front (d :: back))
  by_contra hlong
  have hall : front ++ [d] <+: needle := by
    apply List.prefix_of_prefix_length_le _ h
    · rw [List.length_append, List.length_singleton]
      omega
    · exact ⟨back, by simp⟩
  exact hd (hall.subset (by simp))

theorem prefix_of_concat_prefix_append {needle front back : List Char} {d : Char} (hd : d ∉ back)
    (h : needle ++ [d] <+: front ++ back) : needle ++ [d] <+: front := by
  obtain ⟨rest, hrest⟩ := h
  rcases List.append_eq_append_iff.mp hrest with ⟨tail, hfront, -⟩ | ⟨tail, hneedle, hback⟩
  · exact ⟨tail, hfront.symm⟩
  · rcases List.eq_nil_or_concat' tail with rfl | ⟨init, e, rfl⟩
    · rw [List.append_nil] at hneedle
      rw [hneedle]
    · rw [← List.append_assoc] at hneedle
      obtain ⟨-, hlast⟩ := List.append_inj' hneedle rfl
      obtain rfl := List.singleton_inj.mp hlast
      exact absurd (by rw [hback]; simp) hd

theorem infix_append_iff_of_notMem {c : Char} {sep front back : List Char} (hc : c ∉ front) :
    c :: sep <:+: front ++ back ↔ c :: sep <:+: back := by
  induction front with
  | nil => rfl
  | cons d front ih =>
      obtain ⟨hne, hfront⟩ := not_or.mp (mt List.mem_cons.mpr hc)
      have hnot : ¬ c :: sep <+: d :: (front ++ back) := fun h =>
        hne (List.cons_prefix_cons.mp h).1
      rw [List.cons_append, List.infix_cons_iff, or_iff_right hnot, ih hfront]

/-- No occurrence goes over a character that the word has not got. -/
theorem infix_append_cons_iff {c : Char} {needle : List Char} (hc : c ∉ needle)
    (front back : List Char) :
    needle <:+: front ++ c :: back ↔ needle <:+: front ∨ needle <:+: back := by
  constructor
  · intro h
    induction front with
    | nil =>
        rcases List.infix_cons_iff.mp h with hstarts | hback
        · have hempty : needle <+: [] := prefix_of_prefix_append hc hstarts
          exact Or.inl hempty.isInfix
        · exact Or.inr hback
    | cons d front ih =>
        rw [List.cons_append, List.infix_cons_iff] at h
        rcases h with hstarts | hrest
        · rw [← List.cons_append] at hstarts
          exact Or.inl (prefix_of_prefix_append hc hstarts).isInfix
        · exact (ih hrest).imp_left fun hfront => hfront.trans (List.suffix_cons d front).isInfix
  · rintro (h | h)
    · exact h.trans (List.prefix_append front (c :: back)).isInfix
    · exact h.trans ((List.suffix_cons c back).trans (List.suffix_append front _)).isInfix

/-- The number of places where a word stands in a text. -/
def occurrences (word : List Char) : List Char → Nat
  | [] => if word.isEmpty then 1 else 0
  | c :: rest => (if word.isPrefixOf (c :: rest) then 1 else 0) + occurrences word rest

section Counting

variable {word : List Char} (hword : word ≠ [])
include hword

theorem occurrences_eq_zero_iff (text : List Char) :
    occurrences word text = 0 ↔ ¬ word <:+: text := by
  induction text with
  | nil => simp [occurrences, hword]
  | cons c text ih =>
      rw [occurrences, Nat.add_eq_zero_iff, ih, List.infix_cons_iff, not_or,
        ← List.isPrefixOf_iff_prefix]
      split <;> simp_all

theorem occurrences_append_cons {c : Char} (hc : c ∉ word) (front back : List Char) :
    occurrences word (front ++ c :: back) = occurrences word front + occurrences word back := by
  induction front with
  | nil =>
      obtain ⟨d, rest, rfl⟩ := List.exists_cons_of_ne_nil hword
      obtain ⟨hne, -⟩ := not_or.mp (mt List.mem_cons.mpr hc)
      simp [occurrences, List.isPrefixOf, Ne.symm hne]
  | cons d front ih =>
      have hstart : word.isPrefixOf (d :: (front ++ c :: back)) = word.isPrefixOf (d :: front) := by
        rw [Bool.eq_iff_iff, List.isPrefixOf_iff_prefix, List.isPrefixOf_iff_prefix,
          ← List.cons_append]
        exact ⟨prefix_of_prefix_append hc, fun h => h.trans (List.prefix_append _ _)⟩
      rw [List.cons_append, occurrences, occurrences, ih, hstart, Nat.add_assoc]

end Counting

end ClassSkeleton.Text
