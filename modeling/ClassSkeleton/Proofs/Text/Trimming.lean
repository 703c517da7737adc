import ClassSkeleton.Text.Trim
import Mathlib.Data.List.Basic
import Mathlib.Data.List.TakeWhile

namespace ClassSkeleton.Text

/-!
# Trimmed texts

A text is tidy if there is something in it and no blank at its ends. Trimming makes every text
tidy that is not all blank, and takes off just what stands around a tidy text.
-/

structure Tidy (text : List Char) : Prop where
  nonempty : text ≠ []
  front : ∀ c ∈ text.head?, Unicode.isBlank c = false
  back : ∀ c ∈ text.getLast?, Unicode.isBlank c = false

theorem not_isBlank_of_mem_head?_trimStart {text : List Char} {c : Char}
    (h : c ∈ (trimStart text).head?) : Unicode.isBlank c = false := by
  have hnot := List.head?_dropWhile_not Unicode.isBlank text
  rw [trimStart] at h
  rw [Option.mem_def.mp h] at hnot
  simpa using hnot

theorem not_isBlank_of_mem_getLast?_trimEnd {text : List Char} {c : Char}
    (h : c ∈ (trimEnd text).getLast?) : Unicode.isBlank c = false := by
  rw [trimEnd, List.getLast?_reverse] at h
  exact not_isBlank_of_mem_head?_trimStart h

theorem isPrefix_trimEnd (text : List Char) : trimEnd text <+: text := by
  have hsuffix : trimStart text.reverse <:+ text.reverse := List.dropWhile_suffix _
  simpa [trimEnd] using List.reverse_prefix.mpr hsuffix

theorem exists_trimStart (text : List Char) :
    ∃ blanks, (∀ c ∈ blanks, Unicode.isBlank c = true) ∧ text = blanks ++ trimStart text :=
  ⟨text.takeWhile Unicode.isBlank, fun _ hc => List.all_eq_true.mp List.all_takeWhile _ hc,
    List.takeWhile_append_dropWhile.symm⟩

theorem exists_trimEnd (text : List Char) : ∃ blanks, (∀ c ∈ blanks, Unicode.isBlank c = true) ∧
    text = trimEnd text ++ blanks := by
  obtain ⟨blanks, hblanks, htext⟩ := exists_trimStart text.reverse
  refine ⟨blanks.reverse, fun c hc => hblanks c (List.mem_reverse.mp hc), ?_⟩
  rw [trimEnd, ← List.reverse_append, ← htext, List.reverse_reverse]

theorem trim_isInfix (text : List Char) : trim text <:+: text :=
  (isPrefix_trimEnd _).isInfix.trans (List.dropWhile_suffix _).isInfix

theorem trim_sublist (text : List Char) : (trim text).Sublist text := (trim_isInfix text).sublist

theorem trim_eq_nil_iff (text : List Char) :
    trim text = [] ↔ ∀ c ∈ text, Unicode.isBlank c = true := by
  have hstart (chars : List Char) :
      trimStart chars = [] ↔ ∀ c ∈ chars, Unicode.isBlank c = true := List.dropWhile_eq_nil_iff
  rw [← hstart, trim, trimEnd, List.reverse_eq_nil_iff, hstart]
  refine ⟨fun h => ?_, fun h => by simp [h]⟩
  cases hrest : trimStart text with
  | nil => rfl
  | cons c rest =>
      have hc := h c (by simp [hrest])
      have hhead : c ∈ (trimStart text).head? := by simp [hrest]
      rw [not_isBlank_of_mem_head?_trimStart hhead] at hc
      cases hc

theorem tidy_trim {text : List Char} (h : trim text ≠ []) : Tidy (trim text) where
  nonempty := h
  front := by
    intro c hc
    obtain ⟨rest, hrest⟩ : trim text <+: trimStart text := isPrefix_trimEnd _
    have hhead : c ∈ (trimStart text).head? := by
      rw [← hrest, List.head?_append_of_ne_nil _ h]
      exact hc
    exact not_isBlank_of_mem_head?_trimStart hhead
  back := fun _ hc => not_isBlank_of_mem_getLast?_trimEnd hc

theorem tidy_trimmed {s : String} (h : trimmed s ≠ "") : Tidy (trimmed s).toList := by
  rw [trimmed, String.toList_ofList]
  apply tidy_trim
  intro hempty
  exact h (by rw [trimmed, hempty])

theorem trimStart_append {blanks text : List Char}
    (hblanks : ∀ c ∈ blanks, Unicode.isBlank c = true)
    (htext : ∀ c ∈ text.head?, Unicode.isBlank c = false) :
    trimStart (blanks ++ text) = text := by
  induction blanks with
  | nil =>
      rw [List.nil_append, trimStart]
      cases text with
      | nil => rfl
      | cons c rest => rw [List.dropWhile_cons_of_neg (by simp [htext c rfl])]
  | cons c blanks ih =>
      obtain ⟨hc, hrest⟩ := List.forall_mem_cons.mp hblanks
      rw [List.cons_append, trimStart, List.dropWhile_cons_of_pos hc]
      exact ih hrest

theorem takeWhile_append_of_head {p : Char → Bool} {front back : List Char}
    (hfront : ∀ c ∈ front, p c = true) (hback : ∀ c ∈ back.head?, p c = false) :
    (front ++ back).takeWhile p = front := by
  rw [List.takeWhile_append_of_pos hfront, List.append_right_eq_self]
  cases back with
  | nil => rfl
  | cons c back => exact List.takeWhile_cons_of_neg (by simp [hback c rfl])

/-- Where a text stops having a property it can be cut in one way only. -/
theorem append_inj_of_forall {p : Char → Bool} {front back first second : List Char}
    (h : front ++ back = first ++ second) (hfront : ∀ c ∈ front, p c = true)
    (hback : ∀ c ∈ back.head?, p c = false) (hfirst : ∀ c ∈ first, p c = true)
    (hsecond : ∀ c ∈ second.head?, p c = false) : front = first ∧ back = second := by
  have hsame : front = first := by
    rw [← takeWhile_append_of_head hfront hback, h, takeWhile_append_of_head hfirst hsecond]
  subst hsame
  exact ⟨rfl, List.append_cancel_left h⟩

theorem trimEnd_append {blanks text : List Char}
    (hblanks : ∀ c ∈ blanks, Unicode.isBlank c = true)
    (htext : ∀ c ∈ text.getLast?, Unicode.isBlank c = false) :
    trimEnd (text ++ blanks) = text := by
  have hreverse : trimStart (blanks.reverse ++ text.reverse) = text.reverse := by
    apply trimStart_append
    · simpa using hblanks
    · simpa using htext
  rw [trimEnd, List.reverse_append, hreverse, List.reverse_reverse]

theorem trim_surrounded {lead text trail : List Char} (h : Tidy text)
    (hlead : ∀ c ∈ lead, Unicode.isBlank c = true)
    (htrail : ∀ c ∈ trail, Unicode.isBlank c = true) :
    trim (lead ++ (text ++ trail)) = text := by
  have hfront : ∀ c ∈ (text ++ trail).head?, Unicode.isBlank c = false := by
    rw [List.head?_append_of_ne_nil _ h.nonempty]
    exact h.front
  rw [trim, trimStart_append hlead hfront, trimEnd_append htrail h.back]

theorem trimEnd_append_blanks {blanks : List Char} (h : ∀ c ∈ blanks, Unicode.isBlank c = true)
    (text : List Char) : trimEnd (text ++ blanks) = trimEnd text := by
  have hreverse : trimStart (blanks.reverse ++ text.reverse) = trimStart text.reverse :=
    List.dropWhile_append_of_pos (by simpa using h)
  rw [trimEnd, List.reverse_append, hreverse, trimEnd]

theorem trimEnd_append_cons {c : Char} (hc : Unicode.isBlank c = false) (front back : List Char) :
    trimEnd (front ++ c :: back) = front ++ c :: trimEnd back := by
  obtain ⟨blanks, hblanks, hback⟩ := exists_trimEnd back
  have hparts : front ++ c :: back = front ++ c :: trimEnd back ++ blanks := by
    conv_lhs => rw [hback]
    simp
  rw [hparts]
  refine trimEnd_append hblanks fun d hd => ?_
  cases hlast : (trimEnd back).getLast? with
  | none =>
      rw [List.getLast?_eq_none_iff.mp hlast, List.getLast?_append] at hd
      obtain rfl := Option.some.inj hd
      exact hc
  | some e =>
      rw [List.getLast?_append, List.getLast?_cons, hlast] at hd
      obtain rfl := Option.some.inj hd
      exact not_isBlank_of_mem_getLast?_trimEnd hlast

theorem trim_blanks_append {blanks : List Char} (h : ∀ c ∈ blanks, Unicode.isBlank c = true)
    (text : List Char) : trim (blanks ++ text) = trim text := by
  have hstart : trimStart (blanks ++ text) = trimStart text := List.dropWhile_append_of_pos h
  rw [trim, hstart, trim]

theorem trim_append_blanks {blanks : List Char} (h : ∀ c ∈ blanks, Unicode.isBlank c = true)
    (text : List Char) : trim (text ++ blanks) = trim text := by
  by_cases hnil : trimStart text = []
  · have hall : trimStart (text ++ blanks) = [] := List.dropWhile_eq_nil_iff.mpr
      (List.forall_mem_append.mpr ⟨List.dropWhile_eq_nil_iff.mp hnil, h⟩)
    rw [trim, trim, hall, hnil]
  · have hstart : trimStart (text ++ blanks) = trimStart text ++ blanks := by
      rw [trimStart, List.dropWhile_append, if_neg (by rwa [List.isEmpty_iff])]
      rfl
    rw [trim, hstart, trimEnd_append_blanks h, trim]

/-- A text that ends with no blank has blanks in front only. -/
theorem exists_lead_trim {text : List Char} (h : ∀ c ∈ text.getLast?, Unicode.isBlank c = false) :
    ∃ lead, (∀ c ∈ lead, Unicode.isBlank c = true) ∧ text = lead ++ trim text := by
  obtain ⟨lead, hlead, htext⟩ := exists_trimStart text
  refine ⟨lead, hlead, ?_⟩
  have hlast : ∀ c ∈ (trimStart text).getLast?, Unicode.isBlank c = false := by
    intro c hc
    refine h c ?_
    rw [htext, List.getLast?_append, Option.mem_def.mp hc]
    rfl
  have hend : trimEnd (trimStart text ++ []) = trimStart text := trimEnd_append nofun hlast
  rw [List.append_nil] at hend
  rw [trim, hend, ← htext]

theorem exists_trim_trail {text : List Char} (h : ∀ c ∈ text.head?, Unicode.isBlank c = false) :
    ∃ trail, (∀ c ∈ trail, Unicode.isBlank c = true) ∧ text = trim text ++ trail := by
  obtain ⟨trail, htrail, htext⟩ := exists_trimEnd text
  refine ⟨trail, htrail, ?_⟩
  have hstart : trimStart ([] ++ text) = text := trimStart_append nofun h
  rw [List.nil_append] at hstart
  rwa [trim, hstart]

theorem tidy_trim_of_mem {text : List Char} {c : Char} (hmem : c ∈ text)
    (hc : Unicode.isBlank c = false) : Tidy (trim text) := by
  refine tidy_trim fun hnil => ?_
  rw [(trim_eq_nil_iff text).mp hnil c hmem] at hc
  cases hc

theorem Tidy.join {front back : List Char} (hfront : Tidy front) (hback : Tidy back)
    (gap : List Char) : Tidy (front ++ (gap ++ back)) := by
  refine ⟨List.append_ne_nil_of_left_ne_nil hfront.nonempty _, ?_, ?_⟩
  · rw [List.head?_append_of_ne_nil _ hfront.nonempty]
    exact hfront.front
  · rw [← List.append_assoc, List.getLast?_append_of_ne_nil _ hback.nonempty]
    exact hback.back

/-- Trimming takes nothing away where two texts meet that end and begin with something to keep. -/
theorem trim_append {front back : List Char}
    (hlast : ∀ c ∈ front.getLast?, Unicode.isBlank c = false)
    (hhead : ∀ c ∈ back.head?, Unicode.isBlank c = false) (hfront : Tidy (trim front))
    (hback : Tidy (trim back)) (gap : List Char) :
    trim (front ++ (gap ++ back)) = trim front ++ (gap ++ trim back) := by
  obtain ⟨lead, hlead, hleft⟩ := exists_lead_trim hlast
  obtain ⟨trail, htrail, hright⟩ := exists_trim_trail hhead
  have hparts : front ++ (gap ++ back) = lead ++ ((trim front ++ (gap ++ trim back)) ++ trail) := by
    conv_lhs => rw [hleft, hright]
    simp only [List.append_assoc]
  rw [hparts, trim_surrounded (hfront.join hback gap) hlead htrail]

end ClassSkeleton.Text
