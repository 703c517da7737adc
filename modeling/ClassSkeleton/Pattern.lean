import ClassSkeleton.Pattern.Grammar.Sequence
import ClassSkeleton.Pattern.Replace
import ClassSkeleton.Pattern.Template

namespace ClassSkeleton

/-!
# Patterns

A pattern is known by the text it was read from. Its tree and its group names are what that
text reads as.
-/

structure Pattern where
  source : String
  node : Pattern.Node
  names : List (String × Nat)
  read : Pattern.Grammar.read? source.toList = some (node, names)

namespace Pattern

def ofString? (source : String) : Option Pattern :=
  match h : Grammar.read? source.toList with
  | some (node, names) => some ⟨source, node, names, h⟩
  | none => none

@[simp] theorem ofString?_source (p : Pattern) : ofString? p.source = some p := by
  unfold ofString?
  split
  · next node names h =>
    obtain ⟨rfl, rfl⟩ := Prod.mk.inj (Option.some.inj (p.read.symm.trans h))
    rfl
  · next h => exact absurd (p.read.symm.trans h) (by simp)

theorem source_of_ofString? {source : String} {p : Pattern} (h : ofString? source = some p) :
    p.source = source := by
  unfold ofString? at h
  split at h
  · obtain rfl := Option.some.inj h
    rfl
  · simp at h

def find (p : Pattern) : Finder := p.node.matchAt?

/-- Replaces every match by the expansion of a template. -/
def replaceAll (p : Pattern) (template : String) (text : String) : String :=
  let parts := Template.parts template.toList
  String.ofList (replaceMatches p.find (Template.expand p.names parts) text.toList)

end Pattern

end ClassSkeleton
