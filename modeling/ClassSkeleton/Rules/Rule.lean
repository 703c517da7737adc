import ClassSkeleton.Pattern
import ClassSkeleton.Rules.Unwrap

namespace ClassSkeleton.Rules

/-!
# Rules and tables

A rule replaces what its pattern matches, or unwraps it. A table is an ordered list of rules,
each applied to what the rule before it left.
-/

inductive Replacement where
  | template (text : String)
  | unwrap
  deriving DecidableEq, Repr

structure Rule where
  pattern : Pattern
  replacement : Replacement

namespace Rule

def apply (rule : Rule) (text : String) : String :=
  match rule.replacement with
  | .template template => rule.pattern.replaceAll template text
  | .unwrap => String.ofList (unwrapAll rule.pattern.find text.toList).text

/-- The openers in a text that the rule drops although no bracket closes them. -/
def unclosed (rule : Rule) (text : String) : List String :=
  match rule.replacement with
  | .template _ => []
  | .unwrap => (unwrapAll rule.pattern.find text.toList).unclosed.map String.ofList

def isUnwrap (rule : Rule) : Bool := rule.replacement == .unwrap

end Rule

/-- An opener that no bracket closes, and the text that the rule was given. -/
structure Unclosed where
  opener : String
  text : String
  deriving DecidableEq, Repr

abbrev Table := List Rule

namespace Table

def apply (table : Table) (text : String) : String :=
  table.foldl (fun text rule => rule.apply text) text

@[simp] theorem apply_nil (text : String) : apply [] text = text := rfl

@[simp] theorem apply_cons (rule : Rule) (table : Table) (text : String) :
    apply (rule :: table) text = apply table (rule.apply text) := rfl

theorem apply_append (table others : Table) (text : String) :
    apply (table ++ others) text = apply others (apply table text) := List.foldl_append

/-- The rules that change the text they are given, by their place in the table, each with the
text it leaves. -/
def changes (table : Table) (text : String) : List (Nat × String) :=
  go 0 table text
where
  go (index : Nat) : Table → String → List (Nat × String)
    | [], _ => []
    | rule :: rest, text =>
      let after := rule.apply text
      if after = text then go (index + 1) rest after
      else (index, after) :: go (index + 1) rest after

/-- What the unwrapping rules of the table find unclosed, in the order of the rules. -/
def unclosed : Table → String → List Unclosed
  | [], _ => []
  | rule :: rest, text =>
    (rule.unclosed text).map (⟨·, text⟩) ++ unclosed rest (rule.apply text)

end Table

end ClassSkeleton.Rules
