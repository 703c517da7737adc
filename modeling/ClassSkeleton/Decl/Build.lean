import ClassSkeleton.Decl.Basic
import ClassSkeleton.Diagnostic
import ClassSkeleton.Markup.Print
import ClassSkeleton.Markup.Tree
import ClassSkeleton.Text.Trim

namespace ClassSkeleton.Decl

/-!
# Reading declarations

A compound element of a document records a class or a struct. It is read into a declaration,
or the first thing that is wrong with it is reported at its place in the source.
-/

/-- What is wrong with a record. -/
inductive RecordError where
  | missingAttribute (element name : String)
  | missingChild (element name : String)
  | emptyChild (element name : String)
  | wrongKind (kind : String)
  | unknownProtection (value : String)
  | wrongFlag (element name value : String)
  deriving DecidableEq, Repr

namespace RecordError

def kind : RecordError → DiagnosticKind
  | missingAttribute .. => .missingAttribute
  | missingChild .. => .missingElement
  | emptyChild .. => .missingElement
  | wrongKind _ => .invalidAttribute
  | unknownProtection _ => .invalidAttribute
  | wrongFlag .. => .invalidAttribute

def message : RecordError → String
  | missingAttribute element name => element ++ " is missing the '" ++ name ++ "' attribute"
  | missingChild element name => element ++ " has no <" ++ name ++ ">"
  | emptyChild element name => element ++ " has an empty <" ++ name ++ ">"
  | wrongKind kind => "'" ++ kind ++ "' is not a class or struct"
  | unknownProtection value => "unknown protection '" ++ value ++ "'"
  | wrongFlag element name value =>
    element ++ " has " ++ name ++ "=\"" ++ value ++ "\", expected yes or no"

end RecordError

/-- A record error and the offset of the element that has it. -/
structure RecordFault where
  error : RecordError
  offset : Nat
  deriving DecidableEq, Repr

def recordHelp : String :=
  "Regenerate the XML with a Doxygen version that emits full member records"

def RecordFault.diagnostic (f : RecordFault) (source : String) : Diagnostic :=
  ⟨f.error.kind, f.error.message, some (.ofByte source f.offset), some recordHelp⟩

abbrev Reading := Except RecordFault

def refuse {α : Type} (e : Markup.Element) (error : RecordError) : Reading α :=
  .error ⟨error, e.tag.offset⟩

def requiredAttr (e : Markup.Element) (name : String) : Reading String :=
  match e.attr? name with
  | some value => .ok value
  | none => refuse e (.missingAttribute e.name name)

/-- The trimmed text of a child that has to be there and may not be blank. -/
def requiredText (e : Markup.Element) (name : String) : Reading String :=
  match e.child? name with
  | none => refuse e (.missingChild e.name name)
  | some child =>
    let text := Text.trimmed child.text
    if text.isEmpty then refuse e (.emptyChild e.name name) else .ok text

/-- An attribute that says yes or no. -/
def requiredFlag (e : Markup.Element) (name : String) : Reading Bool := do
  let value ← requiredAttr e name
  match value with
  | "yes" => return true
  | "no" => return false
  | _ => refuse e (.wrongFlag e.name name value)

/-- The level that a protection attribute names. None at all means that of the package. -/
def Visibility.ofProtection? (protection : String) : Option Visibility :=
  match Text.trimmed protection with
  | "public" => some pub
  | "protected" => some prot
  | "private" => some priv
  | "package" => some package
  | "" => some package
  | _ => none

def readVisibility (e : Markup.Element) : Reading Visibility :=
  match e.attr? "prot" with
  | none => .ok .package
  | some protection =>
    match Visibility.ofProtection? protection with
    | some visibility => .ok visibility
    | none => refuse e (.unknownProtection protection)

/-- The tokens of a type element: its texts and its references. -/
def readType (e : Option Markup.Element) : TypeRef :=
  match e with
  | none => []
  | some e => e.children.map fun
    | .text s => .text s
    | .element tag children => .ref (Markup.Element.text ⟨tag, children⟩)

/-- The elements inside a description, as markup. -/
def readFragments (e : Markup.Element) (name : String) : List String :=
  match e.child? name with
  | none => []
  | some description => description.elements.map Markup.Element.toXml

def readDoc (e : Markup.Element) : Doc :=
  ⟨readFragments e "briefdescription", readFragments e "detaileddescription"⟩

/-- The name of a parameter that is declared without one. -/
def fallbackName : String := "ref"

/-- Reads a parameter; a nameless one of type `void` stands for none. -/
def readParam? (e : Markup.Element) : Option Param :=
  let type := readType (e.child? "type")
  let names := ["declname", "defname", "name"].filterMap fun name =>
    (e.child? name).map fun child => Text.trimmed child.text
  match names.find? fun name => !name.isEmpty with
  | some name => some ⟨name, type⟩
  | none => if Text.trimmed type.raw = "void" then none else some ⟨fallbackName, type⟩

def readMethodKind (e : Markup.Element) : Reading MemberKind := do
  let virt ← requiredAttr e "virt"
  return .method (virt = "pure-virtual") (e.child? "reimplements").isSome
    (e.attr? "const" = some "yes") ((e.childrenNamed "param").filterMap readParam?)

def readFieldKind (e : Markup.Element) : Reading MemberKind := do
  return .field (← requiredFlag e "mutable")

/-- Reads a member; one that is neither a function nor a variable gives none. -/
def readMember (e : Markup.Element) : Reading (Option Member) := do
  let kind ← requiredAttr e "kind"
  if kind = "function" ∨ kind = "variable" then
    let name ← requiredText e "name"
    let isStatic ← requiredFlag e "static"
    let memberKind ← if kind = "function" then readMethodKind e else readFieldKind e
    let visibility ← readVisibility e
    return some ⟨name, readType (e.child? "type"), visibility, isStatic, memberKind, readDoc e⟩
  else return none

def readMembers : List Markup.Element → Reading (List Member)
  | [] => .ok []
  | e :: rest => do
    let member ← readMember e
    return member.toList ++ (← readMembers rest)

def readBase (e : Markup.Element) : Base :=
  ⟨Text.trimmed e.text,
    if e.attr? "virt" = some "virtual" then .capability else .supertype⟩

def readBases (e : Markup.Element) : List Base :=
  ((e.childrenNamed "basecompoundref").map readBase).filter fun base => !base.name.isEmpty

/-- Reads a compound: its own record first, then its members in document order. -/
def readClass (e : Markup.Element) : Reading ClassDecl := do
  let kindText ← requiredAttr e "kind"
  let kind ← match Kind.ofText? kindText with
    | some kind => pure kind
    | none => refuse e (.wrongKind kindText)
  let visibility ← readVisibility e
  let name ← requiredText e "compoundname"
  let members ← readMembers (e.descendantsNamed "memberdef")
  return ⟨name, kind, visibility, readBases e, readDoc e, members⟩

end ClassSkeleton.Decl
