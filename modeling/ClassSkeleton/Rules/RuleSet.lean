import ClassSkeleton.Rules.Rule

namespace ClassSkeleton.Rules

/-!
# Rule sets

Five tables change the parts of a class: the names of methods, references in the tokens of a
type, the tokens themselves, the whole type, and documentation.
-/

inductive TableName where
  | methodNames
  | typeReferences
  | types
  | typeRemovals
  | docs
  deriving DecidableEq, Repr

namespace TableName

def text : TableName → String
  | methodNames => "method_names"
  | typeReferences => "type_references"
  | types => "types"
  | typeRemovals => "type_removals"
  | docs => "docs"

def all : List TableName := [methodNames, typeReferences, types, typeRemovals, docs]

def ofText? (name : String) : Option TableName := all.find? (·.text = name)

@[simp] theorem ofText?_text (t : TableName) : ofText? t.text = some t := by cases t <;> decide

theorem mem_all (t : TableName) : t ∈ all := by cases t <;> decide

end TableName

/-- One value for each table. -/
structure PerTable (α : Type) where
  methodNames : α
  typeReferences : α
  types : α
  typeRemovals : α
  docs : α

namespace PerTable

def get {α : Type} (p : PerTable α) : TableName → α
  | .methodNames => p.methodNames
  | .typeReferences => p.typeReferences
  | .types => p.types
  | .typeRemovals => p.typeRemovals
  | .docs => p.docs

def set {α : Type} (p : PerTable α) (name : TableName) (value : α) : PerTable α :=
  match name with
  | .methodNames => { p with methodNames := value }
  | .typeReferences => { p with typeReferences := value }
  | .types => { p with types := value }
  | .typeRemovals => { p with typeRemovals := value }
  | .docs => { p with docs := value }

def map {α β : Type} (f : α → β) (p : PerTable α) : PerTable β :=
  ⟨f p.methodNames, f p.typeReferences, f p.types, f p.typeRemovals, f p.docs⟩

def replicate {α : Type} (value : α) : PerTable α := ⟨value, value, value, value, value⟩

@[simp] theorem get_map {α β : Type} (f : α → β) (p : PerTable α) (t : TableName) :
    (p.map f).get t = f (p.get t) := by cases t <;> rfl

@[simp] theorem get_replicate {α : Type} (value : α) (t : TableName) :
    (replicate value).get t = value := by cases t <;> rfl

theorem get_set {α : Type} (p : PerTable α) (t u : TableName) (value : α) :
    (p.set t value).get u = if u = t then value else p.get u := by cases t <;> cases u <;> rfl

theorem ext_get {α : Type} {p q : PerTable α} (h : ∀ t, p.get t = q.get t) : p = q := by
  have hmethods := h .methodNames
  have hreferences := h .typeReferences
  have htypes := h .types
  have hremovals := h .typeRemovals
  have hdocs := h .docs
  cases p
  cases q
  simp only [get] at hmethods hreferences htypes hremovals hdocs
  subst hmethods hreferences htypes hremovals hdocs
  rfl

end PerTable

abbrev RuleSet := PerTable Table

end ClassSkeleton.Rules
