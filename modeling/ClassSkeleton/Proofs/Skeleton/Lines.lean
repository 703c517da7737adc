import ClassSkeleton.Proofs.Rules.Spacing
import ClassSkeleton.Proofs.Skeleton.Cuts

namespace ClassSkeleton.Skeleton

/-!
# Types on one line

A type is written with single spaces inside it and without a separator, if the only lone blanks in
its tokens are spaces and no wrapper is taken off that encloses nothing but blanks.
-/

open Rules Rules.Standard Text

/-- Whether a text is fit to stand on one line: no blank at its ends, every run of blanks a single
space, and no separator. -/
structure IsLine (text : List Char) : Prop where
  front : ∀ c ∈ text.head?, Unicode.isBlank c = false
  back : ∀ c ∈ text.getLast?, Unicode.isBlank c = false
  spaces : ∀ run ∈ runs Unicode.isBlank text, (∀ c ∈ run, Unicode.isBlank c = true) → run = [' ']
  plain : ¬ [':', ':'] <:+: text

theorem IsLine.of_neat {text : List Char} (h : Neat (· = ' ') text)
    (hplain : ¬ [':', ':'] <:+: text) : IsLine text where
  front := h.front
  back := h.back
  spaces := by
    intro run hrun hblank
    obtain ⟨c, rfl, rfl⟩ := h.exists_of_mem_runs hrun hblank
    rfl
  plain := hplain

namespace Rewriting

section

variable {w : Rewriting} (hrules : w.rules = standard)
include hrules

theorem neat_joinedTokens {ok : Char → Prop} (hok : ok ' ') {type : Decl.TypeRef}
    (hlone : ∀ t ∈ type, ∀ c, Lone c t.spelling.toList → ok c) :
    Neat ok (w.joinedTokens type).toList := by
  rw [toList_joinedTokens hrules]
  refine (Neat.intercalate ?_ hok).1
  intro part hpart
  obtain ⟨hmem, hne⟩ := List.mem_filter.mp hpart
  obtain ⟨t, ht, rfl⟩ := List.mem_map.mp hmem
  exact ⟨neat_spelled hok (hlone t ht), by simpa using hne⟩

/-- A type is written with single blanks, each of them a space or lone in one of the tokens. -/
theorem neat_typeName {ok : Char → Prop} (hok : ok ' ') {type : Decl.TypeRef}
    (hsettles : Settles .angle type.raw.toList)
    (hfilled : ∀ inside ∈ enclosedBy wrappers (w.joinedTokens type).toList, trim inside ≠ [])
    (hlone : ∀ t ∈ type, ∀ c, Lone c t.spelling.toList → ok c) :
    Neat ok (w.typeName type).toList := by
  rw [toList_typeName hrules]
  have hjoined : Settles .angle (w.joinedTokens type).toList :=
    hsettles.of_outline (outline_joinedTokens hrules type).symm
  exact neat_dotted (neat_unwrapped hjoined (neat_joinedTokens hrules hok hlone) hfilled)

/-- No separator is left in a type, whatever it is. -/
theorem typeName_plain (type : Decl.TypeRef) : ¬ [':', ':'] <:+: (w.typeName type).toList := by
  rw [toList_typeName hrules]
  exact not_isInfix_dotted _

/-- A type whose angle brackets match is fit to stand on one line, if no wrapper is taken off that
encloses nothing but blanks, and the lone blanks of its tokens are spaces. -/
theorem typeName_isLine {type : Decl.TypeRef} (hsettles : Settles .angle type.raw.toList)
    (hfilled : ∀ inside ∈ enclosedBy wrappers (w.joinedTokens type).toList, trim inside ≠ [])
    (hspaced : ∀ t ∈ type, IsSpaced t.spelling.toList) : IsLine (w.typeName type).toList := by
  have hneat : Neat (· = ' ') (w.typeName type).toList := by
    refine neat_typeName hrules ?_ hsettles hfilled fun t ht _ => (hspaced t ht).eq_space
    rfl
  exact .of_neat hneat (typeName_plain hrules type)

end

/-- A type that is broken over two lines, with a wrapper and a reference. -/
theorem typeName_isLine_broken :
    let w : Rewriting := ⟨standard, ""⟩
    let type : Decl.TypeRef := [.text "const std::auto_ptr<\n  ", .ref "ns::Quote", .text " > &"]
    Settles .angle type.raw.toList ∧
      (∀ inside ∈ enclosedBy wrappers (w.joinedTokens type).toList, trim inside ≠ []) ∧
      (∀ t ∈ type, IsSpaced t.spelling.toList) ∧ IsLine (w.typeName type).toList := by
  intro w type
  have hrules : w.rules = standard := rfl
  have hsettles : Settles .angle type.raw.toList := by decide +kernel
  have hfilled : ∀ inside ∈ enclosedBy wrappers (w.joinedTokens type).toList,
      trim inside ≠ [] := by
    rw [toList_joinedTokens hrules]
    simp only [spelled_eq]
    decide +kernel
  have hspaced : ∀ t ∈ type, IsSpaced t.spelling.toList := by decide +kernel
  exact ⟨hsettles, hfilled, hspaced, typeName_isLine hrules hsettles hfilled hspaced⟩

/-- A line break that stands alone between two arguments is kept, and the spaces on both sides of a
wrapper that encloses nothing are left side by side. -/
theorem typeName_not_isLine :
    let w : Rewriting := ⟨standard, ""⟩
    ∀ type ∈ ([[.text "A<B,\nC>"], [.text "A std::auto_ptr<> B"]] : List Decl.TypeRef),
      Settles .angle type.raw.toList ∧ ¬ IsLine (w.typeName type).toList := by
  intro w type htype
  have hrules : w.rules = standard := rfl
  have hrun : ∃ run ∈ runs Unicode.isBlank (w.typeName type).toList,
      run.all Unicode.isBlank = true ∧ run ≠ [' '] := by
    rw [toList_typeName hrules, toList_joinedTokens hrules]
    simp only [spelled_eq, unwrapped_eq]
    revert type htype
    decide +kernel
  have hsettles : Settles .angle type.raw.toList := by
    clear hrun
    revert type htype
    decide +kernel
  obtain ⟨run, hmem, hblank, hne⟩ := hrun
  exact ⟨hsettles, fun h => hne (h.spaces run hmem (List.all_eq_true.mp hblank))⟩

end Rewriting

end ClassSkeleton.Skeleton
