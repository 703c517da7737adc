import ClassSkeleton.Proofs.Text.Brackets
import ClassSkeleton.Text.Trim
import Mathlib.Algebra.Ring.Nat

namespace ClassSkeleton.Text

/-!
# Outlines and entries

The outline of a text is what is left when everything but brackets and commas is struck out. It
says whether the text is balanced, and into how many entries the commas outside all brackets
divide it.
-/

def outline (text : List Char) : List Char := text.filter (· ∈ marks)

@[simp] theorem outline_nil : outline [] = [] := rfl

@[simp] theorem outline_append (text more : List Char) :
    outline (text ++ more) = outline text ++ outline more := List.filter_append text more

theorem outline_cons (c : Char) (text : List Char) :
    outline (c :: text) = outline [c] ++ outline text := outline_append [c] text

theorem outline_cons_of_mem {c : Char} (h : c ∈ marks) (text : List Char) :
    outline (c :: text) = c :: outline text := List.filter_cons_of_pos (by simpa using h)

theorem outline_cons_of_notMem {c : Char} (h : c ∉ marks) (text : List Char) :
    outline (c :: text) = outline text := List.filter_cons_of_neg (by simpa using h)

theorem outline_of_notMem {text : List Char} (h : ∀ c ∈ text, c ∉ marks) : outline text = [] := by
  rw [outline, List.filter_eq_nil_iff]
  simpa using h

theorem depth_of_notMem {c : Char} (h : c ∉ marks) (b : Bracket) : depth b [c] = 0 := by
  obtain ⟨hopen, hclose⟩ := b.ne_of_notMem_marks h
  simp [depth, hopen, hclose]

theorem depth_outline (b : Bracket) (text : List Char) :
    depth b (outline text) = depth b text := by
  induction text with
  | nil => rfl
  | cons c text ih =>
      by_cases hc : c ∈ marks
      · rw [outline_cons_of_mem hc, depth_cons, ih, ← depth_cons]
      · rw [outline_cons_of_notMem hc, ih, depth_cons b c text, depth_of_notMem hc, Int.zero_add]

theorem Settles.of_outline {b : Bracket} {text other : List Char} (h : Settles b text)
    (heq : outline text = outline other) : Settles b other :=
  h.of_filter (by cases b <;> decide) (by cases b <;> decide) heq

theorem Balanced.of_outline {text other : List Char} (h : Balanced text)
    (heq : outline text = outline other) : Balanced other := fun b => (h b).of_outline heq

/-- What stands in a balanced text may be put in another way that ends at the same depth, if it
closes no bracket that is not open. -/
theorem Settles.splice {b : Bracket} {front text other back : List Char}
    (h : Settles b (front ++ (text ++ back))) (hdepth : depth b other = depth b text)
    (hnonneg : ∀ first second, other = first ++ second → 0 ≤ depth b front + depth b first) :
    Settles b (front ++ (other ++ back)) where
  nonneg := by
    intro first second hparts
    rcases List.append_eq_append_iff.mp hparts with ⟨rest, rfl, hrest⟩ | ⟨rest, hfront, -⟩
    · rw [depth_append]
      rcases List.append_eq_append_iff.mp hrest with ⟨tail, rfl, hback⟩ | ⟨tail, hother, -⟩
      · have hall := h.nonneg (front ++ (text ++ tail)) second (by simp [hback])
        simp only [depth_append] at hall ⊢
        omega
      · exact hnonneg rest tail hother
    · exact h.nonneg first (rest ++ (text ++ back)) (by simp [hfront])
  settled := by
    have hall := h.settled
    simp only [depth_append] at hall ⊢
    omega

/-- Whether no bracket is open behind `before`. -/
def IsOutside (before : List Char) : Prop := ∀ b, depth b before = 0

instance (before : List Char) : Decidable (IsOutside before) :=
  decidable_of_iff (depth .angle before = 0 ∧ depth .round before = 0)
    ⟨fun h b => by cases b; exacts [h.1, h.2], fun h => ⟨h .angle, h .round⟩⟩

/-- The number of commas outside all brackets in a text that stands behind `before`, which is read
backwards. -/
def outerCommas (before : List Char) : List Char → Nat
  | [] => 0
  | c :: rest => (if c = ',' ∧ IsOutside before then 1 else 0) + outerCommas (c :: before) rest

/-- The number of parts that the commas outside all brackets divide a text into. -/
def entries (text : List Char) : Nat := outerCommas [] text + 1

@[simp] theorem outerCommas_nil (before : List Char) : outerCommas before [] = 0 := rfl

theorem outerCommas_cons {c : Char} (h : c ≠ ',') (before rest : List Char) :
    outerCommas before (c :: rest) = outerCommas (c :: before) rest := by
  simp [outerCommas, h]

theorem outerCommas_append (before text more : List Char) :
    outerCommas before (text ++ more) =
      outerCommas before text + outerCommas (text.reverse ++ before) more := by
  induction text generalizing before with
  | nil => simp
  | cons c text ih =>
      rw [List.cons_append, outerCommas, outerCommas, ih, Nat.add_assoc, List.reverse_cons,
        List.append_assoc]
      rfl

theorem outerCommas_congr {before other : List Char} (h : ∀ b, depth b before = depth b other)
    (text : List Char) : outerCommas before text = outerCommas other text := by
  induction text generalizing before other with
  | nil => rfl
  | cons c text ih =>
      have hnext (b : Bracket) : depth b (c :: before) = depth b (c :: other) := by
        rw [depth_cons, depth_cons b c other, h]
      have houtside : IsOutside before ↔ IsOutside other := forall_congr' fun b => by rw [h]
      simp only [outerCommas, houtside, ih hnext]

theorem outerCommas_outline (before text : List Char) :
    outerCommas before (outline text) = outerCommas before text := by
  induction text generalizing before with
  | nil => rfl
  | cons c text ih =>
      by_cases hc : c ∈ marks
      · rw [outline_cons_of_mem hc, outerCommas, outerCommas, ih]
      · have hne : c ≠ ',' := by
          rintro rfl
          exact hc (by decide)
        have hsame (b : Bracket) : depth b before = depth b (c :: before) := by
          rw [depth_cons, depth_of_notMem hc, Int.zero_add]
        rw [outline_cons_of_notMem hc, ih, outerCommas_cons hne, outerCommas_congr hsame]

theorem outerCommas_of_outline {text other : List Char} (h : outline text = outline other)
    (before : List Char) : outerCommas before text = outerCommas before other := by
  rw [← outerCommas_outline, h, outerCommas_outline]

/-- A balanced text in front has no part in the counting behind it. -/
theorem Balanced.outerCommas_append {text : List Char} (h : Balanced text) (more : List Char) :
    outerCommas [] (text ++ more) = outerCommas [] text + outerCommas [] more := by
  have hsame (b : Bracket) : depth b (text.reverse ++ []) = depth b [] := by
    simp [(h b).settled]
  rw [Text.outerCommas_append, outerCommas_congr hsame]

theorem outerCommas_eq_zero {before text : List Char}
    (h : ∀ front back, text = front ++ back → 0 < depth .angle (front.reverse ++ before)) :
    outerCommas before text = 0 := by
  induction text generalizing before with
  | nil => rfl
  | cons c text ih =>
      have hbefore : ¬ IsOutside before := by
        intro houtside
        have hpos : 0 < depth .angle before := h [] (c :: text) rfl
        rw [houtside .angle] at hpos
        exact absurd hpos (by decide)
      have hrest : outerCommas (c :: before) text = 0 := by
        apply ih
        rintro front back rfl
        simpa using h (c :: front) back rfl
      simp [outerCommas, hbefore, hrest]

theorem depth_open_add_depth_close (b : Bracket) : depth b ['<'] + depth b ['>'] = 0 := by
  cases b <;> decide

section Removal

variable {front inside back : List Char} (hinside : Settles .angle inside)
include hinside

/-- A pair of angle brackets can be taken out of a balanced text. -/
theorem Balanced.remove_pair (h : Balanced (front ++ ('<' :: (inside ++ ['>']) ++ back))) :
    Balanced (front ++ (inside ++ back)) := by
  intro b
  apply (h b).splice
  · have hpair := depth_open_add_depth_close b
    rw [depth_cons, depth_append]
    omega
  · rintro first second rfl
    cases b with
    | angle =>
        have hfront := (h .angle).nonneg front _ rfl
        have hfirst := hinside.nonneg first second rfl
        omega
    | round =>
        have hopen : depth .round ['<'] = 0 := by decide
        have hfirst := (h .round).nonneg (front ++ '<' :: first) (second ++ ['>'] ++ back) (by simp)
        rw [depth_append, depth_cons] at hfirst
        omega

/-- Whoever takes out a pair of angle brackets puts the commas in it outside. -/
theorem outerCommas_remove_pair {before : List Char} (hbefore : 0 ≤ depth .angle before) :
    outerCommas before (inside ++ back) =
      outerCommas before ('<' :: (inside ++ ['>']) ++ back) + outerCommas before inside := by
  have hopen : depth .angle ['<'] = 1 := by decide
  have hnone : outerCommas ('<' :: before) inside = 0 := by
    apply outerCommas_eq_zero
    intro first second hparts
    have hfirst := hinside.nonneg first second hparts
    rw [depth_append, depth_reverse, depth_cons, hopen]
    omega
  have hbehind (b : Bracket) : depth b ('>' :: (inside.reverse ++ '<' :: before)) =
      depth b (inside.reverse ++ before) := by
    have hpair := depth_open_add_depth_close b
    rw [depth_cons, depth_append, depth_append, depth_cons b '<' before]
    omega
  have hwith : outerCommas before ('<' :: (inside ++ ['>']) ++ back) =
      outerCommas (inside.reverse ++ before) back := by
    rw [List.cons_append, List.append_assoc, outerCommas_cons (by decide), outerCommas_append,
      hnone, Nat.zero_add, List.cons_append, List.nil_append, outerCommas_cons (by decide),
      outerCommas_congr hbehind]
  rw [outerCommas_append, hwith, Nat.add_comm]

end Removal

theorem outline_trim (text : List Char) : outline (trim text) = outline text := by
  have hblank {c : Char} (hc : Unicode.isBlank c = true) : c ∉ marks :=
    notMem_marks_of (by decide) hc
  have hstart (text : List Char) : outline (trimStart text) = outline text := by
    induction text with
    | nil => rfl
    | cons c text ih =>
        cases hc : Unicode.isBlank c with
        | true =>
            rw [trimStart, List.dropWhile_cons_of_pos hc, outline_cons_of_notMem (hblank hc)]
            exact ih
        | false => rw [trimStart, List.dropWhile_cons_of_neg (by simp [hc])]
  have hend (text : List Char) : outline (trimEnd text) = outline text := by
    rw [trimEnd, outline, List.filter_reverse, ← outline, hstart, outline, List.filter_reverse,
      List.reverse_reverse]
    rfl
  rw [trim, hend, hstart]

theorem outline_intercalate {sep : List Char} (h : outline sep = []) (parts : List (List Char)) :
    outline (sep.intercalate parts) = parts.flatMap outline := by
  induction parts with
  | nil => rfl
  | cons first parts ih =>
      rcases parts with _ | ⟨second, parts⟩
      · simp
      · rw [List.intercalate_cons_cons, outline_append, outline_append, ih, h, List.append_nil]
        rfl

/-- Balanced texts with commas between them have one entry each, and one more for every comma
that is outside all brackets in one of them. -/
theorem entries_intercalate {parts : List (List Char)} (h : ∀ part ∈ parts, Balanced part)
    (hparts : parts ≠ []) : entries ([',', ' '].intercalate parts) =
      parts.length + (parts.map (outerCommas [])).sum := by
  induction parts with
  | nil => exact absurd rfl hparts
  | cons first parts ih =>
      obtain ⟨hfirst, hrest⟩ := List.forall_mem_cons.mp h
      rcases parts with _ | ⟨second, parts⟩
      · simp [entries, Nat.add_comm]
      · have hsep : Balanced [',', ' '] := .of_forall (by intro b; cases b <;> decide)
        have hone : outerCommas [] [',', ' '] = 1 := by decide
        have hnext := ih hrest (List.cons_ne_nil second parts)
        rw [entries] at hnext ⊢
        rw [List.intercalate_cons_cons, (hfirst.append hsep).outerCommas_append,
          hfirst.outerCommas_append, hone, List.map_cons, List.sum_cons, List.length_cons]
        omega

end ClassSkeleton.Text
