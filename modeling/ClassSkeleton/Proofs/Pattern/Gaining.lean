import ClassSkeleton.Pattern.Replace
import ClassSkeleton.Proofs.Pattern.Taking

namespace ClassSkeleton.Pattern

/-!
# Replacements that add mass

Every character has a mass. If what is put in place of a match always has more of it than the
match, then a text that holds a match gains mass, and a text that holds none stays as it is.
-/

def mass (w : Char → Int) : List Char → Int
  | [] => 0
  | c :: rest => w c + mass w rest

section Mass

variable (w : Char → Int)

@[simp] theorem mass_nil : mass w [] = 0 := rfl

@[simp] theorem mass_cons (c : Char) (text : List Char) :
    mass w (c :: text) = w c + mass w text := rfl

@[simp] theorem mass_append (text more : List Char) :
    mass w (text ++ more) = mass w text + mass w more := by
  induction text with
  | nil => simp
  | cons c text ih => rw [List.cons_append, mass_cons, mass_cons, ih, Int.add_assoc]

theorem mass_flatMap_reverse {α : Type} (f : α → List Char) (xs : List α) :
    mass w (xs.reverse.flatMap f) = mass w (xs.flatMap f) := by
  induction xs with
  | nil => rfl
  | cons x xs ih =>
      rw [List.reverse_cons, List.flatMap_append, mass_append, ih, List.flatMap_cons, mass_append]
      simp [Int.add_comm]

@[simp] theorem mass_reverse (text : List Char) : mass w text.reverse = mass w text := by
  simpa [List.flatMap_singleton'] using mass_flatMap_reverse w (fun c => [c]) text

end Mass

/-- Whether a match begins in a text that stands behind `before`. -/
def HitsFrom (find : Finder) (before text : List Char) : Prop :=
  ∃ passed rest, text = passed ++ rest ∧ (find (passed.reverse ++ before) rest).isSome = true

namespace HitsFrom

variable {find : Finder} {before : List Char}

theorem cons_iff (c : Char) (rest : List Char) : HitsFrom find before (c :: rest) ↔
    (find before (c :: rest)).isSome = true ∨ HitsFrom find (c :: before) rest := by
  constructor
  · rintro ⟨_ | ⟨d, passed⟩, after, htext, hfind⟩
    · rw [List.nil_append] at htext
      exact Or.inl (htext ▸ hfind)
    · obtain ⟨rfl, rfl⟩ := List.cons.inj htext
      exact Or.inr ⟨passed, after, rfl, by simpa using hfind⟩
  · rintro (hfind | ⟨passed, after, rfl, hfind⟩)
    · exact ⟨[], c :: rest, rfl, hfind⟩
    · exact ⟨c :: passed, after, rfl, by simpa using hfind⟩

theorem nil_iff : HitsFrom find before [] ↔ (find before []).isSome = true := by
  constructor
  · rintro ⟨passed, rest, htext, hfind⟩
    obtain ⟨rfl, rfl⟩ := List.append_eq_nil_iff.mp htext.symm
    exact hfind
  · exact fun hfind => ⟨[], [], rfl, hfind⟩

end HitsFrom

theorem replaceFrom_of_not_hits {find : Finder} (expand : Match → List Char)
    {before text : List Char} (h : ¬ HitsFrom find before text) (adjoins : Bool) :
    replaceFrom find expand before 0 adjoins text = text := by
  induction text generalizing before adjoins with
  | nil =>
      have hnone : find before [] = none := by simpa [HitsFrom.nil_iff] using h
      simp [replaceFrom, hnone]
  | cons c rest ih =>
      rw [HitsFrom.cons_iff, not_or] at h
      have hnone : find before (c :: rest) = none := by simpa using h.1
      simp [replaceFrom, hnone, ih h.2]

/-- Whether what replaces a match always has more mass than its text. -/
def Gains (w : Char → Int) (find : Finder) (expand : Match → List Char) : Prop :=
  ∀ before after m, find before after = some m →
    mass w (after.take m.length) < mass w (expand m)

namespace Gains

variable {w : Char → Int} {find : Finder} {expand : Match → List Char}

theorem mass_lt (h : Gains w find expand) {before after : List Char} {m : Match}
    (hm : find before after = some m) :
    mass w after < mass w (expand m) + mass w (after.drop m.length) := by
  have hgain := h before after m hm
  have hparts := mass_append w (after.take m.length) (after.drop m.length)
  rw [List.take_append_drop] at hparts
  omega

/-- What is left of the text behind the last match loses no mass. -/
theorem mass_le_replaceFrom (h : Gains w find expand) (before : List Char) (skip : Nat)
    (adjoins : Bool) (text : List Char) :
    mass w (text.drop skip) ≤ mass w (replaceFrom find expand before skip adjoins text) := by
  induction text generalizing before skip adjoins with
  | nil =>
      cases hfind : find before [] with
      | none => simp [replaceFrom, hfind]
      | some m =>
          have hgain := h.mass_lt hfind
          simp only [List.drop_nil, mass_nil] at hgain ⊢
          cases adjoins <;> simp [replaceFrom, hfind]
          omega
  | cons c rest ih =>
      cases skip with
      | succ skip => simpa [replaceFrom] using ih (c :: before) skip adjoins
      | zero =>
          have hnext := ih (c :: before) 0 false
          cases hfind : find before (c :: rest) with
          | none => simpa [replaceFrom, hfind] using hnext
          | some m =>
              have hgain := h.mass_lt hfind
              cases hm : m.length with
              | zero =>
                  simp only [hm, List.drop_zero, mass_cons] at hgain hnext ⊢
                  cases adjoins <;> simp [replaceFrom, hfind, hm] <;> omega
              | succ n =>
                  have hbehind := ih (c :: before) n true
                  simp only [hm, List.drop_succ_cons, List.drop_zero] at hgain ⊢
                  simp only [replaceFrom, hfind, hm, mass_append]
                  omega

theorem mass_lt_replaceFrom (h : Gains w find expand) {before text : List Char}
    (hhits : HitsFrom find before text) :
    mass w text < mass w (replaceFrom find expand before 0 false text) := by
  induction text generalizing before with
  | nil =>
      obtain ⟨m, hfind⟩ := Option.isSome_iff_exists.mp (HitsFrom.nil_iff.mp hhits)
      have hgain := h.mass_lt hfind
      simpa [replaceFrom, hfind] using hgain
  | cons c rest ih =>
      cases hfind : find before (c :: rest) with
      | none =>
          rw [HitsFrom.cons_iff, hfind] at hhits
          have hgain := ih (hhits.resolve_left (by simp))
          simpa [replaceFrom, hfind] using hgain
      | some m =>
          have hgain := h.mass_lt hfind
          cases hm : m.length with
          | zero =>
              have hnext := h.mass_le_replaceFrom (c :: before) 0 false rest
              simp only [hm, List.drop_zero, mass_cons] at hgain hnext ⊢
              simp only [replaceFrom, hfind, hm, mass_append, mass_cons]
              simp only [Bool.false_eq_true, ↓reduceIte]
              omega
          | succ n =>
              have hbehind := h.mass_le_replaceFrom (c :: before) n true rest
              simp only [hm, List.drop_succ_cons] at hgain
              simp only [replaceFrom, hfind, hm, mass_append]
              omega

end Gains

end ClassSkeleton.Pattern
