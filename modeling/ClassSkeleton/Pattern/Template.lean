import ClassSkeleton.Pattern.Match
import ClassSkeleton.Text.Digit

namespace ClassSkeleton.Pattern

/-!
# Replacement templates

A template is text with references to the groups of a match: `$name`, with the longest name
that letters, digits and underscores give, or `${name}`. A name of digits is a group number.
`$$` is a dollar sign, and so is a `$` that begins no reference.
-/

inductive Part where
  | char (c : Char)
  | numbered (index : Nat)
  | named (name : String)
  deriving DecidableEq, Repr

namespace Template

def isNameChar (c : Char) : Bool := c.isAlphanum || c == '_'

/-- A reference by number where the name is one, a plus sign in front allowed. -/
def reference (name : List Char) : Part :=
  let digits := match name with
    | '+' :: rest => rest
    | _ => name
  if digits.isEmpty then .named (String.ofList name)
  else
    match Text.number? 10 digits with
    | some n => .numbered n
    | none => .named (String.ofList name)

/-- Reads the text behind a `$`: the part it makes and the text left over. -/
def readReference (text : List Char) : Part × List Char :=
  match text with
  | '$' :: rest => (.char '$', rest)
  | '\x7b' :: rest =>
    match rest.dropWhile (· != '\x7d') with
    | [] => (.char '$', text)
    | _ :: tail => (reference (rest.takeWhile (· != '\x7d')), tail)
  | _ =>
    match text.takeWhile isNameChar with
    | [] => (.char '$', text)
    | name => (reference name, text.dropWhile isNameChar)

/-- Reads at most as many parts as there is fuel, which the length of the text suffices for. -/
def readParts : Nat → List Char → List Part
  | 0, _ => []
  | _ + 1, [] => []
  | fuel + 1, c :: rest =>
    if c == '$' then
      let (part, tail) := readReference rest
      part :: readParts fuel tail
    else .char c :: readParts fuel rest

def parts (text : List Char) : List Part := readParts text.length text

/-- The text that a part stands for in a match. A group that is unknown or took no part gives
nothing. -/
def expandPart (names : List (String × Nat)) (m : Match) : Part → List Char
  | .char c => [c]
  | .numbered index => (m.group? index).getD []
  | .named name => ((names.lookup name).bind m.group?).getD []

def expand (names : List (String × Nat)) (parts : List Part) (m : Match) : List Char :=
  parts.flatMap (expandPart names m)

end Template

end ClassSkeleton.Pattern
