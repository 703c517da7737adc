import ClassSkeleton.Document
import ClassSkeleton.Json.Value
import ClassSkeleton.Skeleton.Emit
import ClassSkeleton.Skeleton.Warnings

namespace ClassSkeleton

/-!
# Compiling documents

The classes of a document are written one by one. A class that cannot be read is reported, and
so is one whose file belongs to a class before it. The others do not suffer from that.
-/

/-- Why a class, or a whole document, gives no file. -/
inductive Problem where
  | unreadable (why : Diagnostic)
  | rejected (className : String) (why : Diagnostic)
  | duplicate (className fileName first : String)
  | unwritten (path reason : String)
  deriving DecidableEq, Repr

namespace Problem

def message : Problem → String
  | unreadable why => why.message
  | rejected className why => "class " ++ className ++ ": " ++ why.message
  | duplicate className fileName first =>
    "class " ++ className ++ ": " ++ fileName ++ " is already generated for " ++ first
  | unwritten path reason => "failed to write " ++ path ++ ": " ++ reason

/-- The message with the source around it, where it has a place there. -/
def render (p : Problem) (source filename : String) : String :=
  match p with
  | unreadable why => why.render source filename
  | rejected className why => " class: " ++ className ++ "\n" ++ why.render source filename
  | _ => "error: " ++ p.message ++ "\n"

end Problem

structure Compiled where
  units : List Skeleton.SourceUnit
  problems : List Problem

namespace Compiled

def empty : Compiled := ⟨[], []⟩

def addUnit (u : Skeleton.SourceUnit) (c : Compiled) : Compiled := { c with units := u :: c.units }

def addProblem (p : Problem) (c : Compiled) : Compiled :=
  { c with problems := p :: c.problems }

/-- All units in one text, each behind a line with the name of its file. -/
def listing (c : Compiled) : String :=
  String.join (c.units.map fun u => "// " ++ u.fileName ++ "\n" ++ u.code)

def toJson (c : Compiled) : Json.Value :=
  .object [
    ("classes", .array (c.units.map fun u => .object [
      ("code", .string u.code), ("file_name", .string u.fileName), ("name", .string u.name)])),
    ("errors", .array (c.problems.map fun p => .string p.message))]

end Compiled

/-- Compiles what has been read of each class of a document. `owners` knows the classes that
files belong to already. -/
def compileFrom (generate : Decl.ClassDecl → Skeleton.SourceUnit)
    (owners : List (String × String)) :
    List (String × Except Diagnostic Decl.ClassDecl) → Compiled
  | [] => .empty
  | (name, .error why) :: rest => (compileFrom generate owners rest).addProblem (.rejected name why)
  | (_, .ok c) :: rest =>
    let u := generate c
    match owners.lookup u.fileName with
    | some first =>
      (compileFrom generate owners rest).addProblem (.duplicate c.name u.fileName first)
    | none => (compileFrom generate ((u.fileName, c.name) :: owners) rest).addUnit u

/-- The compounds of a document, each with the name it is reported by. -/
def readCompounds (source : String) (compounds : List Markup.Element) :
    List (String × Except Diagnostic Decl.ClassDecl) :=
  compounds.map fun e => (Document.compoundName e, Document.readClass source e)

/-- Compiles a document. It fails only if the document cannot be read at all. -/
def compile (rules : Rules.RuleSet) (options : Skeleton.Options) (source : String) :
    Except Diagnostic Compiled :=
  match Document.compounds source with
  | .error why => .error why
  | .ok compounds =>
    .ok (compileFrom (Skeleton.generate rules options) [] (readCompounds source compounds))

/-- The groups of a class in the order in which they are written. -/
def orderedGroups (options : Skeleton.Options) (c : Decl.ClassDecl) : List Decl.Group :=
  match options.order with
  | .fieldsFirst => c.selection.fields ++ c.selection.methods
  | .methodsFirst => c.selection.methods ++ c.selection.fields

/-- The warnings for the classes of a document that can be read. -/
def compileWarnings (rules : Rules.RuleSet) (options : Skeleton.Options) (source : String) :
    List Skeleton.Warning :=
  match Document.compounds source with
  | .error _ => []
  | .ok compounds => (readCompounds source compounds).flatMap fun entry =>
    match entry.2 with
    | .error _ => []
    | .ok c =>
      (⟨rules, options.ns⟩ : Skeleton.Rewriting).warnings c (orderedGroups options c)

end ClassSkeleton
