import ClassSkeleton.Unicode.CaseOrbit
import ClassSkeleton.Unicode.CharClass
import ClassSkeleton.Unicode.Property
import ClassSkeleton.Unicode.Script

namespace ClassSkeleton.Pattern

/-!
# Sets of characters

A bracket expression, an escape such as `\d` or a single letter denotes a set of characters.
Sets are kept as they are combined, and membership is decided character by character.
-/

inductive CharSet where
  | none
  | one (c : Char)
  | range (first last : Char)
  | blank
  | digit
  | word
  | categories (allowed : List Unicode.Category)
  | script (s : Unicode.Script)
  | property (p : Unicode.Property)
  | union (s t : CharSet)
  | inter (s t : CharSet)
  | compl (s : CharSet)
  | folded (s : CharSet)
  | foldedAscii (s : CharSet)

namespace CharSet

/-- The letter of the other case, for the letters of ASCII. -/
def otherAsciiCase (c : Char) : Char :=
  if c.isUpper then c.toLower else if c.isLower then c.toUpper else c

def contains : CharSet → Char → Bool
  | none, _ => false
  | one d, c => c == d
  | range first last, c => first ≤ c && c ≤ last
  | blank, c => Unicode.isBlank c
  | digit, c => Unicode.isDigit c
  | word, c => Unicode.isWord c
  | categories allowed, c => allowed.contains (Unicode.category c)
  | script s, c => Unicode.script? c == some s
  | property p, c => p.holds c
  | union s t, c => s.contains c || t.contains c
  | inter s t, c => s.contains c && t.contains c
  | compl s, c => !s.contains c
  | folded s, c => (Unicode.caseOrbit c).any fun d => s.contains d
  | foldedAscii s, c => s.contains c || s.contains (otherAsciiCase c)

def any : CharSet := compl none

def diff (s t : CharSet) : CharSet := inter s (compl t)

def symmDiff (s t : CharSet) : CharSet := union (diff s t) (diff t s)

def ofRanges (ranges : List (Char × Char)) : CharSet :=
  ranges.foldr (fun r s => union (range r.1 r.2) s) none

def unions (sets : List CharSet) : CharSet := sets.foldr union none

/-- The complement among the 256 values of a byte. -/
def byteCompl (s : CharSet) : CharSet := diff (range '\x00' '\u00ff') s

/-- Whether a set of byte values has ASCII members only. -/
def isAscii (s : CharSet) : Bool :=
  (List.range 128).all fun n => !s.contains (Char.ofNat (128 + n))

/-- The classes that are named `[:name:]` inside brackets. -/
def posix? : String → Option CharSet
  | "alnum" => some (ofRanges [('0', '9'), ('A', 'Z'), ('a', 'z')])
  | "alpha" => some (ofRanges [('A', 'Z'), ('a', 'z')])
  | "ascii" => some (range '\x00' '\x7f')
  | "blank" => some (ofRanges [('\t', '\t'), (' ', ' ')])
  | "cntrl" => some (ofRanges [('\x00', '\x1f'), ('\x7f', '\x7f')])
  | "digit" => some (range '0' '9')
  | "graph" => some (range '!' '~')
  | "lower" => some (range 'a' 'z')
  | "print" => some (range ' ' '~')
  | "punct" => some (ofRanges [('!', '/'), (':', '@'), ('[', '\x60'), ('\x7b', '~')])
  | "space" => some (ofRanges [('\t', '\r'), (' ', ' ')])
  | "upper" => some (range 'A' 'Z')
  | "word" => some (ofRanges [('0', '9'), ('A', 'Z'), ('_', '_'), ('a', 'z')])
  | "xdigit" => some (ofRanges [('0', '9'), ('A', 'F'), ('a', 'f')])
  | _ => Option.none

/-- An estimate, in bytes, of the automaton that recognizes one character of the set. -/
def weight : CharSet → Nat
  | none => 32
  | one c => 32 * c.utf8Size
  | range _ last => 32 * last.utf8Size
  | blank => 1000
  | digit => 5000
  | word => 55000
  | categories _ => 40000
  | script _ => 4000
  | property _ => 40000
  | union s t => s.weight + t.weight
  | inter s t => s.weight + t.weight
  | compl s => s.weight + 600
  | folded s => s.weight * 2
  | foldedAscii s => s.weight * 2

theorem contains_any (c : Char) : any.contains c = true := rfl

theorem contains_diff (s t : CharSet) (c : Char) :
    (diff s t).contains c = (s.contains c && !t.contains c) := rfl

theorem contains_unions (sets : List CharSet) (c : Char) :
    (unions sets).contains c = sets.any (·.contains c) := by
  induction sets with
  | nil => rfl
  | cons s sets ih => simp only [unions, List.foldr_cons, contains, List.any_cons] at ih ⊢; rw [ih]

end CharSet

end ClassSkeleton.Pattern
