import ClassSkeleton.Decl.Basic
import ClassSkeleton.Rules.RuleSet
import ClassSkeleton.Text.Lines
import ClassSkeleton.Text.Substitute
import ClassSkeleton.Text.Trim

namespace ClassSkeleton.Skeleton

/-!
# Rewriting the parts of a class

Names, types and documentation pass through the tables of a rule set. A namespace is taken off
the names of classes and bases.
-/

/-- The rules in force and the namespace without its `::`; an empty one is never taken off. -/
structure Rewriting where
  rules : Rules.RuleSet
  ns : String

namespace Rewriting

def methodName (w : Rewriting) (name : String) : String := w.rules.methodNames.apply name

def token (w : Rewriting) (t : Decl.Token) : String :=
  w.rules.types.apply (w.rules.typeReferences.apply t.spelling)

/-- The tokens that are left of a type, with single spaces between them. -/
def joinedTokens (w : Rewriting) (type : Decl.TypeRef) : String :=
  " ".intercalate ((type.map w.token).filter fun text => !text.isEmpty)

/-- Every token is rewritten for itself, and wrappers are removed from the whole. -/
def typeName (w : Rewriting) (type : Decl.TypeRef) : String :=
  w.rules.typeRemovals.apply (w.joinedTokens type)

/-- A parameter as `type name`; one whose type vanishes is its name. -/
def param (w : Rewriting) (p : Decl.Param) : String :=
  let type := w.typeName p.type
  if type.isEmpty then p.name else type ++ " " ++ p.name

def params (w : Rewriting) (ps : List Decl.Param) : String := ", ".intercalate (ps.map w.param)

/-- Takes every `ns::` out of a name, in one pass. -/
def stripNamespace (w : Rewriting) (name : String) : String :=
  if w.ns.isEmpty then name
  else String.ofList (Text.substitute (w.ns.toList ++ [':', ':']) [] name.toList)

/-- The innermost part of a qualified name, unless it is empty. -/
def className (w : Rewriting) (qualified : String) : String :=
  let stripped := w.stripNamespace qualified
  let last := Text.lastPart [':', ':'] stripped.toList
  if last.isEmpty then stripped else String.ofList last

/-- A line of a comment may not end the comment. -/
def guardLine (line : List Char) : List Char :=
  Text.substitute ['*', '/'] ['*', '&', '#', '4', '7', ';'] line

/-- The lines of a text that are not blank, trimmed and guarded. -/
def commentLines (text : String) : List String :=
  (((Text.lines text.toList).map Text.trim).filter fun line => !line.isEmpty).map fun line =>
    String.ofList (guardLine line)

def docLines (w : Rewriting) (doc : Decl.Doc) : List String :=
  doc.fragments.flatMap fun fragment => commentLines (w.rules.docs.apply fragment)

/-- A comment block around lines. There is none without lines. -/
def commentBlock (indent : String) (lines : List String) : String :=
  if lines.isEmpty then ""
  else
    indent ++ "/**\n" ++
      String.join (lines.map fun line => indent ++ " * " ++ line ++ "\n") ++ indent ++ " */\n"

def javadoc (w : Rewriting) (doc : Decl.Doc) (indent : String) : String :=
  commentBlock indent (w.docLines doc)

end Rewriting

end ClassSkeleton.Skeleton
