import ClassSkeleton.Decl.Basic

namespace ClassSkeleton.Decl

/-!
# Groups of members

The members of a class fall into twelve groups of methods and twelve of fields, by visibility
and by modifier. Inside a group they keep the order of the source.
-/

/-- What sets a method apart. Being static counts before being pure virtual. -/
inductive MethodModifier where
  | concrete
  | abstract
  | static
  deriving DecidableEq, Repr

/-- What sets a field apart. Being static counts before being mutable. -/
inductive FieldModifier where
  | concrete
  | mutable
  | static
  deriving DecidableEq, Repr

inductive Category where
  | method (modifier : MethodModifier)
  | field (modifier : FieldModifier)
  deriving DecidableEq, Repr

namespace Category

def methods : List Category := [.method .concrete, .method .abstract, .method .static]

def fields : List Category := [.field .concrete, .field .mutable, .field .static]

def index : Category → Nat
  | method .concrete | field .concrete => 0
  | method .abstract | field .mutable => 1
  | method .static | field .static => 2

def title : Category → String
  | method .concrete => "methods"
  | method .abstract => "abstract methods"
  | method .static => "static methods"
  | field .concrete => "fields"
  | field .mutable => "MUTABLE fields (code review: mutable field)"
  | field .static => "static fields"

end Category

structure Label where
  visibility : Visibility
  category : Category
  deriving DecidableEq, Repr

namespace Label

/-- The place of a group among the twelve of its block. -/
def slot (l : Label) : Nat := 3 * l.visibility.index + l.category.index

def visibilityTitle : Visibility → String
  | .package => "@PackagePrivate"
  | v => v.keyword

def banner (l : Label) : String := visibilityTitle l.visibility ++ " " ++ l.category.title

/-- The labels of a block, by visibility first. -/
def block (categories : List Category) : List Label :=
  Visibility.all.flatMap fun visibility => categories.map (⟨visibility, ·⟩)

end Label

def Member.category (m : Member) : Category :=
  match m.kind with
  | .method pureVirtual _ _ _ =>
    if m.isStatic then .method .static
    else if pureVirtual then .method .abstract
    else .method .concrete
  | .field isMutable =>
    if m.isStatic then .field .static
    else if isMutable then .field .mutable
    else .field .concrete

def Member.label (m : Member) : Label := ⟨m.visibility, m.category⟩

structure Group where
  label : Label
  members : List Member

/-- The members of a class in their groups, empty groups included. -/
structure Selection where
  methods : List Group
  fields : List Group

def Group.add (g : Group) (m : Member) : Group := { g with members := g.members ++ [m] }

namespace Selection

def empty : Selection :=
  ⟨(Label.block Category.methods).map (⟨·, []⟩), (Label.block Category.fields).map (⟨·, []⟩)⟩

/-- Adds a member to the group at the slot of its label, in the block of its kind. -/
def place (s : Selection) (m : Member) : Selection :=
  match m.label.category with
  | .method _ => { s with methods := s.methods.modify m.label.slot (·.add m) }
  | .field _ => { s with fields := s.fields.modify m.label.slot (·.add m) }

def ofMembers (members : List Member) : Selection := members.foldl place empty

/-- Every group, methods first. -/
def groups (s : Selection) : List Group := s.methods ++ s.fields

def length (s : Selection) : Nat := s.groups.foldl (fun n group => n + group.members.length) 0

end Selection

def ClassDecl.selection (c : ClassDecl) : Selection := .ofMembers c.members

end ClassSkeleton.Decl
