namespace ClassSkeleton.Decl

/-!
# Declarations

A class as its documentation records it: the bases, the documentation and the members, all in
the order of the source.
-/

/-- The access level of a class or a member; without a specifier it is that of the package. -/
inductive Visibility where
  | pub
  | prot
  | priv
  | package
  deriving DecidableEq, Repr

namespace Visibility

/-- The levels in the order in which they are written out. -/
def all : List Visibility := [pub, prot, priv, package]

def keyword : Visibility → String
  | pub => "public"
  | prot => "protected"
  | priv => "private"
  | package => ""

def index : Visibility → Nat
  | pub => 0
  | prot => 1
  | priv => 2
  | package => 3

end Visibility

inductive Kind where
  | classKind
  | structKind
  deriving DecidableEq, Repr

namespace Kind

def keyword : Kind → String
  | classKind => "class"
  | structKind => "struct"

def ofText? : String → Option Kind
  | "class" => some classKind
  | "struct" => some structKind
  | _ => none

end Kind

/-- A virtual base is a capability, any other a supertype. -/
inductive Inheritance where
  | supertype
  | capability
  deriving DecidableEq, Repr

structure Base where
  name : String
  inheritance : Inheritance
  deriving DecidableEq, Repr

/-- Documentation as fragments of markup. -/
structure Doc where
  brief : List String
  detailed : List String
  deriving DecidableEq, Repr

namespace Doc

def empty : Doc := ⟨[], []⟩

def fragments (doc : Doc) : List String := doc.brief ++ doc.detailed

end Doc

/-- A piece of a type: plain text, or a reference to another declaration. -/
inductive Token where
  | text (s : String)
  | ref (s : String)
  deriving DecidableEq, Repr

namespace Token

def spelling : Token → String
  | text s => s
  | ref s => s

end Token

/-- A type as it is declared, in pieces. -/
abbrev TypeRef := List Token

/-- The spelling of a type in the source. -/
def TypeRef.raw (type : TypeRef) : String := String.join (type.map Token.spelling)

structure Param where
  name : String
  type : TypeRef
  deriving DecidableEq, Repr

inductive MemberKind where
  | method (pureVirtual overrides isConst : Bool) (params : List Param)
  | field (isMutable : Bool)
  deriving DecidableEq, Repr

structure Member where
  name : String
  type : TypeRef
  visibility : Visibility
  isStatic : Bool
  kind : MemberKind
  doc : Doc
  deriving DecidableEq, Repr

structure ClassDecl where
  name : String
  kind : Kind
  visibility : Visibility
  bases : List Base
  doc : Doc
  members : List Member
  deriving DecidableEq, Repr

namespace ClassDecl

def basesOf (c : ClassDecl) (inheritance : Inheritance) : List String :=
  (c.bases.filter (·.inheritance = inheritance)).map (·.name)

def supertypes (c : ClassDecl) : List String := c.basesOf .supertype

def capabilities (c : ClassDecl) : List String := c.basesOf .capability

end ClassDecl

end ClassSkeleton.Decl
