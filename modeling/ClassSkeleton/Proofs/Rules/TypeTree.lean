import ClassSkeleton.Proofs.Rules.Openers
import ClassSkeleton.Proofs.Text.Trimming

namespace ClassSkeleton.Rules

open Text

/-!
# Type trees

A type is a qualified name, alone or applied to types in angle brackets. Blanks may stand around
the brackets and the commas. To unwrap a tree is to put the argument in place of the wrapper
wherever one is applied.
-/

structure QualifiedName where
  segments : List (List Char)
  nonempty : segments ≠ []
  worded : ∀ segment ∈ segments, segment ≠ [] ∧ ∀ c ∈ segment, Unicode.isWord c = true

abbrev Blanks := { text : List Char // ∀ c ∈ text, Unicode.isBlank c = true }

mutual

inductive TypeTree where
  | plain (name : QualifiedName)
  | hollow (name : QualifiedName) (gap inner : Blanks)
  | applied (name : QualifiedName) (gap : Blanks) (args : Arguments)

inductive Arguments where
  | only (lead : Blanks) (arg : TypeTree) (trail : Blanks)
  | more (lead : Blanks) (arg : TypeTree) (trail : Blanks) (rest : Arguments)

end

namespace QualifiedName

def print (sep : List Char) (name : QualifiedName) : List Char := sep.intercalate name.segments

abbrev spelling (name : QualifiedName) : List Char := name.print [':', ':']

/-- Whether none of some names stands anywhere in the name. -/
def Avoids (names : List (List Char)) (name : QualifiedName) : Prop :=
  ∀ other ∈ names, ¬ other <:+: name.spelling

instance (names : List (List Char)) (name : QualifiedName) : Decidable (name.Avoids names) :=
  inferInstanceAs (Decidable (∀ other ∈ names, ¬ other <:+: name.spelling))

theorem mem_print {sep : List Char} {name : QualifiedName} {c : Char} (h : c ∈ name.print sep) :
    c ∈ sep ∨ Unicode.isWord c = true := by
  obtain ⟨segments, hnonempty, hworded⟩ := name
  simp only [print] at h
  clear hnonempty
  induction segments with
  | nil => cases h
  | cons first segments ih =>
      obtain ⟨⟨-, hfirst⟩, hsegments⟩ := List.forall_mem_cons.mp hworded
      rcases segments with _ | ⟨second, segments⟩
      · rw [List.intercalate_singleton] at h
        exact Or.inr (hfirst c h)
      · rw [List.intercalate_cons_cons, List.mem_append, List.mem_append] at h
        rcases h with (h | h) | h
        · exact Or.inr (hfirst c h)
        · exact Or.inl h
        · exact ih hsegments h

theorem spelling_ne_nil (name : QualifiedName) : name.spelling ≠ [] := by
  obtain ⟨segments, hnonempty, hworded⟩ := name
  rcases segments with _ | ⟨first, _ | ⟨second, segments⟩⟩
  · exact absurd rfl hnonempty
  · simpa [spelling, print] using (hworded first List.mem_cons_self).1
  · simp [spelling, print, List.intercalate_cons_cons]

theorem isNameChar_of_mem_spelling {name : QualifiedName} :
    ∀ c ∈ name.spelling, isNameChar c = true := by
  intro c hc
  rcases mem_print hc with hsep | hword
  · obtain rfl : c = ':' := by simpa using hsep
    decide
  · simp [isNameChar, hword]

theorem tidy_spelling (name : QualifiedName) : Tidy name.spelling where
  nonempty := name.spelling_ne_nil
  front := fun c hc =>
    not_isBlank_of_isNameChar (isNameChar_of_mem_spelling c (List.mem_of_mem_head? hc))
  back := fun c hc =>
    not_isBlank_of_isNameChar (isNameChar_of_mem_spelling c (List.mem_of_mem_getLast? hc))

end QualifiedName

mutual

def TypeTree.print (sep : List Char) : TypeTree → List Char
  | .plain name => name.print sep
  | .hollow name gap inner => name.print sep ++ (gap ++ '<' :: (inner ++ ['>']))
  | .applied name gap args => name.print sep ++ (gap ++ '<' :: (args.print sep ++ ['>']))

def Arguments.print (sep : List Char) : Arguments → List Char
  | .only lead arg trail => lead ++ (arg.print sep ++ trail)
  | .more lead arg trail rest => lead ++ (arg.print sep ++ (trail ++ ',' :: rest.print sep))

end

namespace Arguments

def first : Arguments → TypeTree
  | only _ arg _ => arg
  | more _ arg _ _ => arg

def isSingle : Arguments → Bool
  | only _ _ _ => true
  | more _ _ _ _ => false

end Arguments

mutual

/-- The tree without its wrappers: wherever one of some names is applied, its argument. -/
def TypeTree.lift (names : List (List Char)) : TypeTree → TypeTree
  | .plain name => .plain name
  | .hollow name gap inner => .hollow name gap inner
  | .applied name gap args =>
    if name.spelling ∈ names then (args.lift names).first
    else .applied name gap (args.lift names)

def Arguments.lift (names : List (List Char)) : Arguments → Arguments
  | .only lead arg trail => .only lead (arg.lift names) trail
  | .more lead arg trail rest => .more lead (arg.lift names) trail (rest.lift names)

end

mutual

/-- Whether each of some wrappers has one argument, and no other name has a wrapper in it. -/
def TypeTree.WellWrapped (names : List (List Char)) : TypeTree → Prop
  | .plain name => name.Avoids names
  | .hollow name _ _ => name.Avoids names
  | .applied name _ args =>
    (name.spelling ∈ names ∧ args.isSingle = true ∨ name.Avoids names) ∧ args.WellWrapped names

def Arguments.WellWrapped (names : List (List Char)) : Arguments → Prop
  | .only _ arg _ => arg.WellWrapped names
  | .more _ arg _ rest => arg.WellWrapped names ∧ rest.WellWrapped names

end

mutual

instance TypeTree.decidableWellWrapped (names : List (List Char)) :
    ∀ t : TypeTree, Decidable (t.WellWrapped names)
  | .plain name => inferInstanceAs (Decidable (name.Avoids names))
  | .hollow name _ _ => inferInstanceAs (Decidable (name.Avoids names))
  | .applied name _ args =>
    have := args.decidableWellWrapped names
    inferInstanceAs (Decidable
      ((name.spelling ∈ names ∧ args.isSingle = true ∨ name.Avoids names) ∧
        args.WellWrapped names))

instance Arguments.decidableWellWrapped (names : List (List Char)) :
    ∀ args : Arguments, Decidable (args.WellWrapped names)
  | .only _ arg _ => arg.decidableWellWrapped names
  | .more _ arg _ rest =>
    have := arg.decidableWellWrapped names
    have := rest.decidableWellWrapped names
    inferInstanceAs (Decidable (arg.WellWrapped names ∧ rest.WellWrapped names))

end

theorem tidy_append_close {text rest : List Char} (h : Tidy text) :
    Tidy (text ++ (rest ++ ['>'])) := by
  have hclose : Tidy ['>'] := by
    refine ⟨List.cons_ne_nil _ _, ?_, ?_⟩
    all_goals
      rintro c ⟨⟩
      decide
  exact h.join hclose rest

/-- Nothing can be trimmed off a tree. -/
theorem TypeTree.tidy_print (t : TypeTree) : Tidy (t.print [':', ':']) := by
  cases t with
  | plain name => exact name.tidy_spelling
  | hollow name gap inner =>
      have htidy : Tidy (name.spelling ++ ((gap.val ++ '<' :: inner) ++ ['>'])) :=
        tidy_append_close name.tidy_spelling
      simpa [print] using htidy
  | applied name gap args =>
      have htidy : Tidy (name.spelling ++ ((gap.val ++ '<' :: args.print [':', ':']) ++ ['>'])) :=
        tidy_append_close name.tidy_spelling
      simpa [print] using htidy

section Balance

theorem balanced_blanks (blanks : Blanks) : Balanced blanks.val :=
  .of_notMem_marks fun c hc => notMem_marks_of_isBlank (blanks.property c hc)

variable {sep : List Char}

theorem QualifiedName.balanced_print (hsep : ∀ c ∈ sep, c ∉ marks)
    (name : QualifiedName) : Balanced (name.print sep) := by
  apply Balanced.of_notMem_marks
  intro c hc
  rcases mem_print hc with hc | hc
  · exact hsep c hc
  · exact notMem_marks_of_isNameChar (by simp [isNameChar, hc])

mutual

theorem TypeTree.balanced_print (hsep : ∀ c ∈ sep, c ∉ marks) :
    ∀ t : TypeTree, Balanced (t.print sep)
  | .plain name => name.balanced_print hsep
  | .hollow name gap inner =>
    (name.balanced_print hsep).append ((balanced_blanks gap).append (balanced_blanks inner).enclose)
  | .applied name gap args =>
    (name.balanced_print hsep).append
      ((balanced_blanks gap).append (args.balanced_print hsep).enclose)

theorem Arguments.balanced_print (hsep : ∀ c ∈ sep, c ∉ marks) :
    ∀ args : Arguments, Balanced (args.print sep)
  | .only lead arg trail =>
    (balanced_blanks lead).append ((arg.balanced_print hsep).append (balanced_blanks trail))
  | .more lead arg trail rest => by
    have hcomma : Balanced [','] := .of_forall (by intro b; cases b <;> decide)
    exact (balanced_blanks lead).append ((arg.balanced_print hsep).append
      ((balanced_blanks trail).append (hcomma.append (rest.balanced_print hsep))))

end

end Balance

section Lift

variable {names others : List (List Char)}

theorem Arguments.first_lift (args : Arguments) :
    (args.lift names).first = args.first.lift names := by
  cases args <;> rfl

theorem Arguments.isSingle_lift (args : Arguments) :
    (args.lift names).isSingle = args.isSingle := by
  cases args <;> rfl

theorem Arguments.WellWrapped.first {args : Arguments} (h : args.WellWrapped names) :
    args.first.WellWrapped names := by
  cases args with
  | only lead arg trail => exact h
  | more lead arg trail rest => exact h.1

mutual

theorem TypeTree.lift_nil : ∀ t : TypeTree, t.lift [] = t
  | .plain _ => rfl
  | .hollow _ _ _ => rfl
  | .applied name gap args => by rw [TypeTree.lift, if_neg List.not_mem_nil, args.lift_nil]

theorem Arguments.lift_nil : ∀ args : Arguments, args.lift [] = args
  | .only lead arg trail => by rw [Arguments.lift, arg.lift_nil]
  | .more lead arg trail rest => by rw [Arguments.lift, arg.lift_nil, rest.lift_nil]

end

mutual

/-- Some wrappers are lifted first and others later as all of them at once. -/
theorem TypeTree.lift_lift : ∀ t : TypeTree, (t.lift names).lift others = t.lift (names ++ others)
  | .plain _ => rfl
  | .hollow _ _ _ => rfl
  | .applied name gap args => by
    have hargs := args.lift_lift
    by_cases hname : name.spelling ∈ names
    · have hall : name.spelling ∈ names ++ others := List.mem_append_left others hname
      rw [TypeTree.lift, if_pos hname, TypeTree.lift, if_pos hall, ← Arguments.first_lift, hargs]
    · rw [TypeTree.lift, if_neg hname, TypeTree.lift, TypeTree.lift, hargs]
      by_cases hother : name.spelling ∈ others
      · rw [if_pos hother, if_pos (List.mem_append_right names hother)]
      · have hnone : name.spelling ∉ names ++ others := by simp [hname, hother]
        rw [if_neg hother, if_neg hnone]

theorem Arguments.lift_lift :
    ∀ args : Arguments, (args.lift names).lift others = args.lift (names ++ others)
  | .only lead arg trail => by
    rw [Arguments.lift, Arguments.lift, Arguments.lift, arg.lift_lift]
  | .more lead arg trail rest => by
    rw [Arguments.lift, Arguments.lift, Arguments.lift, arg.lift_lift, rest.lift_lift]

end

theorem QualifiedName.Avoids.of_subset {name : QualifiedName} (h : name.Avoids others)
    (hsubset : names ⊆ others) : name.Avoids names := fun other hother => h other (hsubset hother)

mutual

/-- A tree that keeps the rules for all wrappers keeps those for some of them, if none of these
stands in one of the rest. -/
theorem TypeTree.WellWrapped.of_append
    (hapart : ∀ other ∈ others, ∀ name ∈ names, ¬ name <:+: other) :
    ∀ {t : TypeTree}, t.WellWrapped (names ++ others) → t.WellWrapped names
  | .plain _, h => h.of_subset (List.subset_append_left names others)
  | .hollow _ _ _, h => h.of_subset (List.subset_append_left names others)
  | .applied name gap args, ⟨hname, hargs⟩ => by
    refine ⟨?_, Arguments.WellWrapped.of_append hapart hargs⟩
    rcases hname with ⟨hname, hsingle⟩ | havoids
    · rcases List.mem_append.mp hname with hname | hother
      · exact Or.inl ⟨hname, hsingle⟩
      · exact Or.inr (hapart _ hother)
    · exact Or.inr (havoids.of_subset (List.subset_append_left names others))

theorem Arguments.WellWrapped.of_append
    (hapart : ∀ other ∈ others, ∀ name ∈ names, ¬ name <:+: other) :
    ∀ {args : Arguments}, args.WellWrapped (names ++ others) → args.WellWrapped names
  | .only _ _ _, h => TypeTree.WellWrapped.of_append hapart h
  | .more _ _ _ _, ⟨harg, hrest⟩ =>
    ⟨TypeTree.WellWrapped.of_append hapart harg, Arguments.WellWrapped.of_append hapart hrest⟩

end

mutual

theorem TypeTree.WellWrapped.lift :
    ∀ {t : TypeTree}, t.WellWrapped (names ++ others) → (t.lift names).WellWrapped others
  | .plain _, h => h.of_subset (List.subset_append_right names others)
  | .hollow _ _ _, h => h.of_subset (List.subset_append_right names others)
  | .applied name gap args, ⟨hname, hargs⟩ => by
    have hlifted : (args.lift names).WellWrapped others := Arguments.WellWrapped.lift hargs
    by_cases hmem : name.spelling ∈ names
    · rw [TypeTree.lift, if_pos hmem]
      exact hlifted.first
    · rw [TypeTree.lift, if_neg hmem]
      refine ⟨?_, hlifted⟩
      rcases hname with ⟨hname, hsingle⟩ | havoids
      · have hother := (List.mem_append.mp hname).resolve_left hmem
        exact Or.inl ⟨hother, args.isSingle_lift.trans hsingle⟩
      · exact Or.inr (havoids.of_subset (List.subset_append_right names others))

theorem Arguments.WellWrapped.lift :
    ∀ {args : Arguments}, args.WellWrapped (names ++ others) → (args.lift names).WellWrapped others
  | .only _ _ _, h => TypeTree.WellWrapped.lift h
  | .more _ _ _ _, ⟨harg, hrest⟩ =>
    ⟨TypeTree.WellWrapped.lift harg, Arguments.WellWrapped.lift hrest⟩

end

end Lift

end ClassSkeleton.Rules
