import ClassSkeleton.Text.Digit

namespace ClassSkeleton.Markup

/-!
# Faults of a document

Each cause says what is wrong with a piece of markup. Places in a tag count the bytes behind
its opening bracket, and ranges the bytes of a text or of an attribute value.
-/

inductive Cause where
  | unknownMarkup
  | unclosedInstruction
  | unclosedComment
  | unclosedDoctype
  | unclosedData
  | unclosedTag
  | mismatchedEnd (expected found : String)
  | unmatchedEnd (name : String)
  | namelessDoctype
  | keyAlone (place : Nat)
  | missingValue (place : Nat)
  | unquotedValue (place : Nat)
  | unclosedValue (place : Nat) (quote : Char)
  | duplicateKey (place previous : Nat)
  | unknownEntity (start stop : Nat) (name : String)
  | unclosedEntity (start stop : Nat)
  | signedReference
  | emptyReference
  | invalidDigit
  | referenceOverflow
  | invalidCodePoint (n : Nat)
  | nullReference
  deriving DecidableEq, Repr

namespace Cause

def range (start stop : Nat) : String := toString start ++ ".." ++ toString stop

def notClosed (what close : String) : String :=
  "syntax error: " ++ what ++ " not closed: `" ++ close ++ "` not found before end of input"

def inAttribute (place : Nat) (text : String) : String :=
  "error while parsing attribute: position " ++ toString place ++ ": " ++ text

def inReference (text : String) : String := "invalid character reference: " ++ text

def message : Cause → String
  | unknownMarkup => "syntax error: unknown or missed symbol in markup"
  | unclosedInstruction => notClosed "processing instruction or xml declaration" "?>"
  | unclosedComment => notClosed "comment" "-->"
  | unclosedDoctype => notClosed "DOCTYPE" ">"
  | unclosedData => notClosed "CDATA" "]]>"
  | unclosedTag => notClosed "tag" ">"
  | mismatchedEnd expected found =>
    "ill-formed document: expected `</" ++ expected ++ ">`, but `</" ++ found ++ ">` was found"
  | unmatchedEnd name =>
    "ill-formed document: close tag `</" ++ name ++ ">` does not match any open tag"
  | namelessDoctype =>
    "ill-formed document: `<!DOCTYPE>` declaration does not contain a name of a document type"
  | keyAlone place =>
    inAttribute place "attribute key must be directly followed by `=` or space"
  | missingValue place => inAttribute place "`=` must be followed by an attribute value"
  | unquotedValue place => inAttribute place "attribute value must be enclosed in `\"` or `'`"
  | unclosedValue place quote =>
    inAttribute place ("missing closing quote `" ++ quote.toString ++ "` in attribute value")
  | duplicateKey place previous =>
    inAttribute place
      ("duplicated attribute, previous declaration at position " ++ toString previous)
  | unknownEntity start stop name =>
    "at " ++ range start stop ++ ": unrecognized entity `" ++ name ++ "`"
  | unclosedEntity start stop =>
    "Error while escaping character at range " ++ range start stop ++
      ": Cannot find ';' after '&'"
  | signedReference => inReference "unexpected number sign"
  | emptyReference => inReference "cannot parse integer from empty string"
  | invalidDigit => inReference "invalid digit found in string"
  | referenceOverflow => inReference "number too large to fit in target type"
  | invalidCodePoint n => inReference ("`" ++ toString n ++ "` is not a valid codepoint")
  | nullReference => inReference "0x0 character is not permitted in XML"

end Cause

end ClassSkeleton.Markup
