import ClassSkeleton.Json.Fault

namespace ClassSkeleton.Json

/-!
# Reading a document

The cursor knows the rest of the document and the place reached. A fault is reported where
reading stands, or one byte further when it lies with the character that comes next.
-/

structure Cursor where
  rest : List Char
  line : Nat
  column : Nat

namespace Cursor

def start (text : List Char) : Cursor := ⟨text, 1, 0⟩

def tail (cursor : Cursor) : Cursor :=
  match cursor.rest with
  | [] => cursor
  | c :: rest =>
    if c = '\n' then ⟨rest, cursor.line + 1, 0⟩
    else ⟨rest, cursor.line, cursor.column + c.utf8Size⟩

/-- The place one byte further. -/
def beyond (cursor : Cursor) : Nat × Nat :=
  match cursor.rest with
  | [] => (cursor.line, cursor.column)
  | c :: _ => if c = '\n' then (cursor.line + 1, 0) else (cursor.line, cursor.column + 1)

def fault (cursor : Cursor) (cause : Cause) : Fault := ⟨cause, cursor.line, cursor.column⟩

def faultBeyond (cursor : Cursor) (cause : Cause) : Fault :=
  ⟨cause, cursor.beyond.1, cursor.beyond.2⟩

def isBlank (c : Char) : Bool := c = ' ' || c = '\n' || c = '\t' || c = '\r'

def skipFrom (line column : Nat) : List Char → Cursor
  | [] => ⟨[], line, column⟩
  | c :: rest =>
    if c = '\n' then skipFrom (line + 1) 0 rest
    else if isBlank c then skipFrom line (column + 1) rest
    else ⟨c :: rest, line, column⟩

def skipBlanks (cursor : Cursor) : Cursor := skipFrom cursor.line cursor.column cursor.rest

/-- The place `n` bytes further, which may lie inside a character. -/
def afterBytes (line column : Nat) : Nat → List Char → Nat × Nat
  | 0, _ => (line, column)
  | _, [] => (line, column)
  | n + 1, c :: rest =>
    if c = '\n' then afterBytes (line + 1) 0 n rest
    else if c.utf8Size ≤ n + 1 then
      afterBytes line (column + c.utf8Size) (n + 1 - c.utf8Size) rest
    else (line, column + n + 1)

end Cursor

abbrev Reading := StateT Cursor (Except Fault)

def fail {α : Type} (cause : Cause) : Reading α := fun cursor => .error (cursor.fault cause)

def failBeyond {α : Type} (cause : Cause) : Reading α := fun cursor =>
  .error (cursor.faultBeyond cause)

def peek? : Reading (Option Char) := fun cursor => .ok (cursor.rest.head?, cursor)

def bump : Reading Unit := fun cursor => .ok ((), cursor.tail)

/-- The next character, with `cause` as the fault where the document ends. -/
def next (cause : Cause) : Reading Char := fun cursor =>
  match cursor.rest with
  | [] => .error (cursor.fault cause)
  | c :: _ => .ok (c, cursor.tail)

/-- The next character that is no blank, which stays in place. -/
def peekItem? : Reading (Option Char) := fun cursor =>
  .ok (cursor.skipBlanks.rest.head?, cursor.skipBlanks)

/-- The first character of a value. -/
def peekValue : Reading Char := do
  match ← peekItem? with
  | some c => return c
  | none => failBeyond .endOfValue

/-- The rest of a word whose first character has been taken. -/
def readIdent : List Char → Reading Unit
  | [] => pure ()
  | c :: rest => do
    if (← next .endOfValue) = c then readIdent rest else fail .expectedIdent

/-- Four hexadecimal digits. Where there are four bytes but no digits, the fault lies behind
them; where there are fewer, at the end. -/
def readFour : Reading Nat := fun cursor =>
  match cursor.rest with
  | a :: b :: c :: d :: rest =>
    match Text.number? 16 [a, b, c, d] with
    | some n => .ok (n, ⟨rest, cursor.line, cursor.column + 4⟩)
    | none =>
      let (line, column) := Cursor.afterBytes cursor.line cursor.column 4 cursor.rest
      .error ⟨.invalidEscape, line, column⟩
  | short =>
    let size := short.foldl (fun n c => n + c.utf8Size) 0
    let cause := if size < 4 then Cause.endOfString else .invalidEscape
    let (line, column) := Cursor.afterBytes cursor.line cursor.column 4 short
    .error ⟨cause, line, column⟩

def expectInEscape (c : Char) : Reading Unit := do
  match ← peek? with
  | none => fail .endOfString
  | some d =>
    if d = c then bump
    else
      let (line, column) := (← get).beyond
      throw ⟨.unfinishedSurrogate, line, column⟩

/-- The character of an escape with hexadecimal digits; beyond 16 bits it takes two of them. -/
def readUnicode : Reading Char := do
  let n ← readFour
  if 0xdc00 ≤ n ∧ n ≤ 0xdfff then fail .loneSurrogate
  else if 0xd800 ≤ n ∧ n ≤ 0xdbff then
    expectInEscape '\\'
    expectInEscape 'u'
    let low ← readFour
    if low < 0xdc00 ∨ 0xdfff < low then fail .loneSurrogate
    else return Char.ofNat ((n - 0xd800) * 1024 + (low - 0xdc00) + 0x10000)
  else return Char.ofNat n

/-- The character that an escape stands for, from behind its backslash. -/
def readEscape : Reading Char := do
  match ← next .endOfString with
  | '"' => return '"'
  | '\\' => return '\\'
  | '/' => return '/'
  | 'b' => return '\x08'
  | 'f' => return '\x0c'
  | 'n' => return '\n'
  | 'r' => return '\r'
  | 't' => return '\t'
  | 'u' => readUnicode
  | _ => fail .invalidEscape

/-- The characters up to the closing quote, and that quote. -/
def readChars : Nat → Reading (List Char)
  | 0 => fail .endOfString
  | fuel + 1 => do
    match ← next .endOfString with
    | '"' => return []
    | '\\' => return (← readEscape) :: (← readChars fuel)
    | c => if c.toNat < 32 then fail .controlCharacter else return c :: (← readChars fuel)

/-- The text of a string, from behind its opening quote. -/
def readText : Reading String := do
  return String.ofList (← readChars ((← get).rest.length + 1))

def isDigit (c : Char) : Bool := '0' ≤ c && c ≤ '9'

/-- Takes the digits that come next. -/
def readDigits : Reading (List Char) := fun cursor =>
  let digits := cursor.rest.takeWhile isDigit
  .ok (digits, ⟨cursor.rest.dropWhile isDigit, cursor.line, cursor.column + digits.length⟩)

def digitsValue (start : Nat) (digits : List Char) : Nat :=
  digits.foldl (fun n c => 10 * n + (c.toNat - '0'.toNat)) start

/-- Splits digits where the number they spell behind `start` would leave 64 bits. -/
def splitAtLimit (start : Nat) : List Char → Nat × List Char
  | [] => (start, [])
  | c :: rest =>
    let n := 10 * start + (c.toNat - '0'.toNat)
    if 2 ^ 64 ≤ n then (start, c :: rest) else splitAtLimit n rest

def floatOf (negative : Bool) (significand : Nat) (exponent : Int) : Reading Number := do
  match scaled? 10 (Float.ofNat significand) exponent with
  | some x => return .float negative x
  | none => fail .numberOutOfRange

def largestExponent : Nat := Nat.pow 2 31 - 1

def readExponent (negative : Bool) (significand : Nat) (exponent : Int) : Reading Number := do
  bump
  let sign ← peek?
  if sign = some '+' ∨ sign = some '-' then bump
  let first ← next .endOfValue
  if !isDigit first then fail .invalidNumber
  else
    let here ← get
    let n := digitsValue (first.toNat - '0'.toNat) (← readDigits)
    if largestExponent < n then
      if significand ≠ 0 ∧ sign ≠ some '-' then
        let within := (List.range here.rest.length).find? fun k =>
          largestExponent < digitsValue (first.toNat - '0'.toNat) (here.rest.take (k + 1))
        throw ⟨.numberOutOfRange, here.line, here.column + within.getD 0 + 1⟩
      else return .float negative 0
    else
      floatOf negative significand (if sign = some '-' then exponent - n else exponent + n)

def readFraction (negative : Bool) (significand : Nat) (exponent : Int) : Reading Number := do
  bump
  let digits ← readDigits
  let (n, left) := splitAtLimit significand digits
  let exponent := exponent - ((digits.length - left.length : Nat) : Int)
  if digits.isEmpty then
    match ← peek? with
    | some _ => failBeyond .invalidNumber
    | none => failBeyond .endOfValue
  else
    match ← peek? with
    | some 'e' | some 'E' => readExponent negative n exponent
    | _ => floatOf negative n exponent

/-- A number, from behind its sign. -/
def readNumber (negative : Bool) : Reading Number := do
  let first ← next .endOfValue
  if !isDigit first then fail .invalidNumber
  else if first = '0' ∧ (← peek?).any isDigit then failBeyond .invalidNumber
  else
    let (n, left) := splitAtLimit (first.toNat - '0'.toNat) (← readDigits)
    match ← peek? with
    | some '.' => readFraction negative n left.length
    | some 'e' | some 'E' => readExponent negative n left.length
    | _ =>
      if left.isEmpty then return .ofInteger negative n else floatOf negative n left.length

/-- Refuses a value because of its type. Simple values are read first. -/
def refuse {α : Type} (expected : String) : Reading α := do
  let wrong (found : Found) : Reading α := fail (.invalidType found expected)
  match ← peek? with
  | some 'n' =>
    bump
    readIdent ['u', 'l', 'l']
    wrong .null
  | some 't' =>
    bump
    readIdent ['r', 'u', 'e']
    wrong (.bool true)
  | some 'f' =>
    bump
    readIdent ['a', 'l', 's', 'e']
    wrong (.bool false)
  | some '-' =>
    bump
    wrong (.number (← readNumber true))
  | some '"' =>
    bump
    wrong (.string (← readText))
  | some '[' => wrong .array
  | some '\x7b' => wrong .object
  | some c => if isDigit c then wrong (.number (← readNumber false)) else failBeyond .expectedValue
  | none => failBeyond .expectedValue

def readString : Reading String := do
  if (← peekValue) = '"' then
    bump
    readText
  else refuse "a string"

def readBool : Reading Bool := do
  match ← peekValue with
  | 't' =>
    bump
    readIdent ['r', 'u', 'e']
    return true
  | 'f' =>
    bump
    readIdent ['a', 'l', 's', 'e']
    return false
  | _ => refuse "a boolean"

/-- A value, or nothing where `null` stands. -/
def readOptional {α : Type} (read : Reading α) : Reading (Option α) := do
  if (← peekItem?) = some 'n' then
    bump
    readIdent ['u', 'l', 'l']
    return none
  else return some (← read)

end ClassSkeleton.Json
