import ClassSkeleton.Unicode.CharClass

namespace ClassSkeleton.Pattern.Grammar

/-!
# Reading a pattern

A pattern is read from left to right. The flags in force travel with the rest of the text,
and reading fails as a whole where the text is no pattern.
-/

/-- The flags of a pattern. With `spaced`, blanks and comments between items are dropped. -/
structure Flags where
  ignoreCase : Bool
  multiLine : Bool
  dotAll : Bool
  swapGreed : Bool
  unicode : Bool
  carriage : Bool
  spaced : Bool

namespace Flags

def initial : Flags := ⟨false, false, false, false, true, false, false⟩

/-- Turns the flag that a letter names on or off. -/
def switch? (flags : Flags) (on : Bool) : Char → Option Flags
  | 'i' => some { flags with ignoreCase := on }
  | 'm' => some { flags with multiLine := on }
  | 's' => some { flags with dotAll := on }
  | 'U' => some { flags with swapGreed := on }
  | 'u' => some { flags with unicode := on }
  | 'R' => some { flags with carriage := on }
  | 'x' => some { flags with spaced := on }
  | _ => none

end Flags

structure Cursor where
  rest : List Char
  flags : Flags
  groups : Nat
  names : List (String × Nat)

abbrev Reading := StateT Cursor Option

def peek? : Reading (Option Char) := fun cursor => some (cursor.rest.head?, cursor)

/-- The next character, which has to be there. -/
def next : Reading Char := fun cursor =>
  match cursor.rest with
  | [] => none
  | c :: _ => some (c, cursor)

def flags : Reading Flags := fun cursor => some (cursor.flags, cursor)

def setFlags (flags : Flags) : Reading Unit := fun cursor => some ((), { cursor with flags })

def bump : Reading Unit := fun cursor => some ((), { cursor with rest := cursor.rest.tail })

/-- Drops blanks, and comments from `#` to the end of the line. -/
def dropSpace (comment : Bool) : List Char → List Char
  | [] => []
  | c :: rest =>
    if comment then dropSpace (c != '\n') rest
    else if Unicode.isBlank c then dropSpace false rest
    else if c == '#' then dropSpace true rest
    else c :: rest

def skipSpace : Reading Unit := fun cursor =>
  some ((), if cursor.flags.spaced then { cursor with rest := dropSpace false cursor.rest }
    else cursor)

/-- Goes to the next item; there has to be one. -/
def advance : Reading Unit := do
  bump
  skipSpace
  let _ ← next

def expect (c : Char) : Reading Unit := do
  let d ← next
  if c == d then bump else failure

/-- Takes `text` if it comes next. -/
def takes (text : List Char) : Reading Bool := fun cursor =>
  some <| if text.isPrefixOf cursor.rest then
    (true, { cursor with rest := cursor.rest.drop text.length })
  else (false, cursor)

/-- The characters from here on that satisfy `p`, without the space between them. -/
def takeSpaced (p : Char → Bool) : Nat → Reading (List Char)
  | 0 => pure []
  | fuel + 1 => do
    match ← peek? with
    | none => pure []
    | some c =>
      if p c then
        bump
        skipSpace
        return c :: (← takeSpaced p fuel)
      else pure []

def takeAllSpaced (p : Char → Bool) : Reading (List Char) := do
  takeSpaced p (← get).rest.length

end ClassSkeleton.Pattern.Grammar
