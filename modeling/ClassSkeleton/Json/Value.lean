import ClassSkeleton.Text.Digit

namespace ClassSkeleton.Json

/-!
# JSON values and their text

Objects keep the order of their members. Text has two forms: compact, and indented by two
spaces with one element a line.
-/

inductive Value where
  | bool (b : Bool)
  | string (s : String)
  | array (elements : List Value)
  | object (members : List (String × Value))

/-- Four lower-case hexadecimal digits. -/
def fourDigits (n : Nat) : List Char :=
  [Nat.digitChar (n / 4096 % 16), Nat.digitChar (n / 256 % 16), Nat.digitChar (n / 16 % 16),
    Nat.digitChar (n % 16)]

/-- Quotes, backslashes and control characters are escaped; the rest stands for itself. -/
def escapeChar : Char → List Char
  | '"' => ['\\', '"']
  | '\\' => ['\\', '\\']
  | '\x08' => ['\\', 'b']
  | '\x0c' => ['\\', 'f']
  | '\n' => ['\\', 'n']
  | '\r' => ['\\', 'r']
  | '\t' => ['\\', 't']
  | c => if c.toNat < 32 then ['\\', 'u'] ++ fourDigits c.toNat else [c]

def escape (text : List Char) : List Char := text.flatMap escapeChar

def literal (s : String) : List Char := '"' :: escape s.toList ++ ['"']

namespace Value

mutual

def compact : Value → List Char
  | bool b => (toString b).toList
  | string s => literal s
  | array elements => '[' :: compactElements elements ++ [']']
  | object members => '\x7b' :: compactMembers members ++ ['\x7d']

def compactElements : List Value → List Char
  | [] => []
  | [v] => compact v
  | v :: rest => compact v ++ ',' :: compactElements rest

def compactMembers : List (String × Value) → List Char
  | [] => []
  | [(key, v)] => literal key ++ ':' :: compact v
  | (key, v) :: rest => literal key ++ ':' :: compact v ++ ',' :: compactMembers rest

end

/-- A line break and the indentation of `level`. -/
def lineBreak (level : Nat) : List Char := '\n' :: List.replicate (2 * level) ' '

mutual

/-- The indented form of a value inside `level` others. -/
def indented (level : Nat) : Value → List Char
  | bool b => (toString b).toList
  | string s => literal s
  | array [] => ['[', ']']
  | array (v :: rest) =>
    '[' :: lineBreak (level + 1) ++ indented (level + 1) v ++
      indentedElements (level + 1) rest ++ lineBreak level ++ [']']
  | object [] => ['\x7b', '\x7d']
  | object ((key, v) :: rest) =>
    '\x7b' :: lineBreak (level + 1) ++ literal key ++ ':' :: ' ' :: indented (level + 1) v ++
      indentedMembers (level + 1) rest ++ lineBreak level ++ ['\x7d']

/-- The elements behind the first one, each with the comma in front of it. -/
def indentedElements (level : Nat) : List Value → List Char
  | [] => []
  | v :: rest => ',' :: lineBreak level ++ indented level v ++ indentedElements level rest

def indentedMembers (level : Nat) : List (String × Value) → List Char
  | [] => []
  | (key, v) :: rest =>
    ',' :: lineBreak level ++ literal key ++ ':' :: ' ' :: indented level v ++
      indentedMembers level rest

end

end Value

end ClassSkeleton.Json
