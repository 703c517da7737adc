import ClassSkeleton.Text.Digit
import ClassSkeleton.Unicode.Property

namespace ClassSkeleton.Text

/-!
# Quoted text

Messages show a text between double quotes. Quotes and backslashes are escaped, and so are the
characters that would not show: controls, blanks other than the space, unassigned code points
and marks that extend the character before them.
-/

/-- The categories whose characters do not show. -/
def hiddenCategories : List Unicode.Category :=
  Unicode.Category.others ++ Unicode.Category.separators

def isShown (c : Char) : Bool :=
  if c.toNat < 128 then ' ' ≤ c && c ≤ '~'
  else !hiddenCategories.contains (Unicode.category c) && !Unicode.extendsGrapheme c

/-- Lower-case hexadecimal digits, without leading zeros. -/
def hexDigits (n : Nat) : List Char := Nat.toDigits 16 n

def quotedChar : Char → List Char
  | '\x00' => ['\\', '0']
  | '\t' => ['\\', 't']
  | '\n' => ['\\', 'n']
  | '\r' => ['\\', 'r']
  | '"' => ['\\', '"']
  | '\\' => ['\\', '\\']
  | c => if isShown c then [c] else ['\\', 'u', '\x7b'] ++ hexDigits c.toNat ++ ['\x7d']

def quoted (s : String) : String :=
  String.ofList ('"' :: s.toList.flatMap quotedChar ++ ['"'])

end ClassSkeleton.Text
