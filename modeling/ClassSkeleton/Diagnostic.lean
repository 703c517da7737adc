import ClassSkeleton.Text.Lines
import ClassSkeleton.Text.Position

namespace ClassSkeleton

/-!
# Diagnostics

A diagnostic says what is wrong with a document and, where that is known, at which place. It is
shown with the line of the source that the place lies on and a mark below the character.
-/

inductive DiagnosticKind where
  | malformedXml
  | unclosedElement
  | missingElement
  | missingAttribute
  | invalidAttribute
  deriving DecidableEq, Repr

namespace DiagnosticKind

def title : DiagnosticKind → String
  | malformedXml => "Malformed XML"
  | unclosedElement => "Unclosed element"
  | missingElement => "Missing element"
  | missingAttribute => "Missing attribute"
  | invalidAttribute => "Invalid attribute"

end DiagnosticKind

structure Diagnostic where
  kind : DiagnosticKind
  message : String
  position : Option Text.Position
  help : Option String
  deriving DecidableEq, Repr

namespace Diagnostic

def spaces (n : Nat) : String := String.ofList (List.replicate n ' ')

/-- A text at the right end of `width` columns. -/
def alignRight (width : Nat) (s : String) : String := spaces (width - s.length) ++ s

/-- The file with the line and the column, both counted from one. -/
def location (d : Diagnostic) (filename : String) : String :=
  match d.position with
  | some p =>
    " file: " ++ filename ++ ":" ++ toString (p.line + 1) ++ ":" ++ toString (p.column + 1) ++ "\n"
  | none => " file: " ++ filename ++ "\n"

def headline (d : Diagnostic) : String :=
  "error: " ++ d.kind.title ++ ": " ++ d.message ++ "\n"

/-- A line of the source below a bar, with a mark in a column below it. -/
def excerptOf (line : List Char) (p : Text.Position) : String :=
  let number := toString (p.line + 1)
  let width := max 2 number.length
  spaces width ++ " |\n" ++
    alignRight width number ++ " | " ++ String.ofList line ++ "\n" ++
    spaces width ++ " | " ++ spaces p.column ++ "^\n"

/-- The line that the diagnostic is about; a source may end before it. -/
def excerpt (d : Diagnostic) (source : String) : String :=
  match d.position with
  | none => ""
  | some p =>
    match (Text.lines source.toList)[p.line]? with
    | none => ""
    | some line => excerptOf line p

def helpLines : List (List Char) → List String
  | [] => []
  | first :: rest =>
    (" help: " ++ String.ofList first ++ "\n") ::
      rest.map fun line => "       " ++ String.ofList line ++ "\n"

def helpText (d : Diagnostic) : String :=
  match d.help with
  | none => ""
  | some help => "\n" ++ String.join (helpLines (Text.lines help.toList))

def render (d : Diagnostic) (source filename : String) : String :=
  d.location filename ++ d.headline ++ d.excerpt source ++ d.helpText

end Diagnostic

end ClassSkeleton
