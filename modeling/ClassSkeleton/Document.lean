import ClassSkeleton.Decl.Build

namespace ClassSkeleton

/-!
# Documents

A document holds the records of classes and structs among others. A fault of the markup makes
the whole document unreadable; a fault of a record concerns its class alone.
-/

namespace Markup.TreeError

/-- What a tree error means for a reader of the source. -/
def diagnostic (source : String) : TreeError → Diagnostic
  | secondRoot tag =>
    ⟨.malformedXml, "unexpected second root element <" ++ tag.name ++ ">",
      some (.ofByte source tag.offset), none⟩
  | unclosed tag =>
    ⟨.unclosedElement, "<" ++ tag.name ++ "> is never closed",
      some (.ofByte source tag.offset), none⟩
  | noRoot =>
    ⟨.malformedXml, "document has no root element", none,
      some "Point the tool at Doxygen XML output (GENERATE_XML = YES)"⟩
  | markup fault =>
    ⟨.malformedXml, "XML parse error: " ++ fault.cause.message,
      some (.ofByte source fault.offset), none⟩

end Markup.TreeError

namespace Document

def compoundTag : String := "compounddef"

def isClass (e : Markup.Element) : Bool :=
  e.attr? "kind" = some "class" || e.attr? "kind" = some "struct"

/-- The compounds of a tree that record classes and structs: its root, if it is a compound
itself, or the compounds below it. -/
def compoundsOf (root : Markup.Element) : List Markup.Element :=
  (if root.name = compoundTag then [root] else root.descendantsNamed compoundTag).filter isClass

/-- The compounds of a source, in document order. -/
def compounds (source : String) : Except Diagnostic (List Markup.Element) :=
  match Markup.parse source with
  | .error error => .error (error.diagnostic source)
  | .ok root => .ok (compoundsOf root)

/-- The name by which a compound is reported before it has been read. -/
def compoundName (e : Markup.Element) : String :=
  match e.child? "compoundname" with
  | none => "<unnamed>"
  | some child => Text.trimmed child.text

/-- The declaration of a compound. -/
def readClass (source : String) (e : Markup.Element) : Except Diagnostic Decl.ClassDecl :=
  (Decl.readClass e).mapError (·.diagnostic source)

end Document

end ClassSkeleton
