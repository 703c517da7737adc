import ClassSkeleton.Decl.Groups
import ClassSkeleton.Skeleton.Buffer
import ClassSkeleton.Skeleton.Rewriting

namespace ClassSkeleton.Skeleton

/-!
# Writing skeletons

A class is written as its documentation, its header, one block of fields and one of methods.
Every group that is not empty has a banner. Methods get a stub, abstract ones none.
-/

inductive MemberOrder where
  | fieldsFirst
  | methodsFirst
  deriving DecidableEq, Repr

/-- The namespace that is taken off, the order of the blocks and the extension of the files. -/
structure Options where
  ns : String
  order : MemberOrder
  extension : String
  deriving DecidableEq, Repr

/-- A generated class: its name, the name of its file and the code in it. -/
structure SourceUnit where
  name : String
  fileName : String
  code : String
  deriving DecidableEq, Repr

/-- The words that are not empty, with single spaces between them. -/
def words (parts : List String) : String := " ".intercalate (parts.filter fun part => !part.isEmpty)

def indentation (level : Nat) : String := String.ofList (List.replicate (4 * level) ' ')

def stub : String := "throw new UnsupportedOperationException();"

/-- A clause of the header that names classes. There is none without classes. -/
def clause (keyword : String) (names : List String) : String :=
  if names.isEmpty then "" else " " ++ keyword ++ " " ++ ", ".intercalate names

def headerLine (w : Rewriting) (c : Decl.ClassDecl) : String :=
  words [c.visibility.keyword, c.kind.keyword, w.className c.name] ++
    clause "extends" (c.supertypes.map w.stripNamespace) ++
    clause "implements" (c.capabilities.map w.stripNamespace)

def fieldLine (w : Rewriting) (m : Decl.Member) : String :=
  let mark := match m.kind with
    | .field true => "/* @Mutable */"
    | _ => ""
  words [m.visibility.keyword, if m.isStatic then "static" else "", mark, w.typeName m.type,
    m.name]

def methodLine (w : Rewriting) (m : Decl.Member) (isAbstract : Bool)
    (params : List Decl.Param) : String :=
  words [m.visibility.keyword, if m.isStatic then "static" else "",
    if isAbstract then "abstract" else "", w.typeName m.type,
    w.methodName m.name ++ "(" ++ w.params params ++ ")"]

namespace Buffer

def line (b : Buffer) (level : Nat) (text : String) : Buffer :=
  ((b.push (indentation level)).push text).newline

def header (b : Buffer) (w : Rewriting) (c : Decl.ClassDecl) : Buffer :=
  (((b.pushBlock (w.javadoc c.doc "")).push (headerLine w c)).push " \x7b").newline

def banner (b : Buffer) (text : String) : Buffer :=
  (((b.newline.newline.line 1 "//").line 1 ("// " ++ text)).line 1 "//").newline

def field (b : Buffer) (w : Rewriting) (m : Decl.Member) : Buffer :=
  (b.pushBlock (w.javadoc m.doc (indentation 1))).line 1 (fieldLine w m ++ ";")

def method (b : Buffer) (w : Rewriting) (m : Decl.Member) (isAbstract overrides isConst : Bool)
    (params : List Decl.Param) : Buffer :=
  let b := b.pushBlock (w.javadoc m.doc (indentation 1))
  let b := if overrides then b.line 1 "@Override" else b
  let text := methodLine w m isAbstract params ++ if isConst then " /* @ReadOnly */" else ""
  let b :=
    if isAbstract then b.line 1 (text ++ ";")
    else ((b.line 1 (text ++ " \x7b")).line 2 stub).line 1 "\x7d"
  b.newline

/-- A member in the way of its group. A field in a group of methods leaves no trace. -/
def member (b : Buffer) (w : Rewriting) (label : Decl.Label) (m : Decl.Member) : Buffer :=
  match label.category with
  | .field _ => b.field w m
  | .method modifier =>
    match m.kind with
    | .field _ => b
    | .method _ overrides isConst params =>
      b.method w m (modifier = .abstract) overrides isConst params

/-- A group with its banner. An empty group leaves no trace. -/
def group (b : Buffer) (w : Rewriting) (g : Decl.Group) : Buffer :=
  if g.members.isEmpty then b
  else g.members.foldl (fun b m => b.member w g.label m) (b.banner g.label.banner)

def block (b : Buffer) (w : Rewriting) (groups : List Decl.Group) : Buffer :=
  groups.foldl (fun b g => b.group w g) b

end Buffer

def code (w : Rewriting) (order : MemberOrder) (c : Decl.ClassDecl) (s : Decl.Selection) :
    String :=
  let b := Buffer.empty.header w c
  let b := match order with
    | .fieldsFirst => (b.block w s.fields).block w s.methods
    | .methodsFirst => (b.block w s.methods).block w s.fields
  (b.line 0 "\x7d").finish

/-- The skeleton of a class. -/
def generate (rules : Rules.RuleSet) (options : Options) (c : Decl.ClassDecl) : SourceUnit :=
  let w : Rewriting := ⟨rules, options.ns⟩
  let name := w.className c.name
  ⟨name, name ++ "." ++ options.extension, code w options.order c c.selection⟩

end ClassSkeleton.Skeleton
