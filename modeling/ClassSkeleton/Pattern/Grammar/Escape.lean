import ClassSkeleton.Pattern.Grammar.Cursor
import ClassSkeleton.Pattern.Node
import ClassSkeleton.Text.Cut

namespace ClassSkeleton.Pattern.Grammar

/-!
# Escapes

A backslash gives a character, a set or an assertion. Punctuation stands for itself behind
it, and no letter or digit does.
-/

/-- What an escape stands for; a character written with two hexadecimal digits may be a byte. -/
inductive Atom where
  | char (c : Char) (byte : Bool)
  | set (s : CharSet)
  | look (l : Look)

/-- Applies the case flag to a set and then the negation. Sets of bytes have to be ASCII. -/
def finishSet? (flags : Flags) (negated : Bool) (s : CharSet) : Option CharSet :=
  if flags.unicode then
    let s := if flags.ignoreCase then .folded s else s
    some (if negated then .compl s else s)
  else
    let s := if flags.ignoreCase then .foldedAscii s else s
    let s := if negated then s.byteCompl else s
    if s.isAscii then some s else none

/-- The character with a code point below 2^32, where there is one. -/
def charOfDigits? (digits : List Char) : Option Char := do
  let n ← Text.number? 16 digits
  if digits.isEmpty || !n.isValidChar then none else some (Char.ofNat n)

/-- Exactly `n` hexadecimal digits. -/
def readDigits : Nat → Reading (List Char)
  | 0 => pure []
  | n + 1 => do
    let c ← next
    if (Text.digit? 16 c).isNone then failure
    bump
    skipSpace
    return c :: (← readDigits n)

/-- A code point: `width` digits, or any number of them in braces. -/
def readCode (width : Nat) : Reading Atom := do
  advance
  if (← next) == '\x7b' then
    advance
    let digits ← takeAllSpaced (· != '\x7d')
    expect '\x7d'
    skipSpace
    return .char (← charOfDigits? digits) false
  else
    let c ← charOfDigits? (← readDigits width)
    return .char c (width == 2)

/-- Property names are compared in lower case, without blanks, `_` and `-`, and without `is` in
front. -/
def normalized (name : List Char) : String :=
  let fold (text : List Char) : List Char :=
    (text.filter fun c => c.toNat < 128 && c != ' ' && c != '_' && c != '-').map Char.toLower
  match fold (name.take 2) with
  | ['i', 's'] =>
    let rest := fold (name.drop 2)
    String.ofList (if rest == ['c'] then ['i', 's', 'c'] else rest)
  | _ => String.ofList (fold name)

def categorySet? (spelling : String) : Option CharSet :=
  match spelling with
  | "any" => some .any
  | "ascii" => some (.range '\x00' '\x7f')
  | "assigned" => some (.compl (.categories [.cn]))
  | _ => (Unicode.Category.named? spelling).map .categories

def scriptSet? (spelling : String) : Option CharSet :=
  (Unicode.Script.named? spelling).map .script

/-- A property, a general category or a script, in this order; `cf`, `sc` and `lc` are
categories. -/
def propertySet? (spelling : String) : Option CharSet :=
  let property :=
    if ["cf", "sc", "lc"].contains spelling then none
    else (Unicode.Property.named? spelling).map CharSet.property
  property <|> categorySet? spelling <|> scriptSet? spelling

def valueSet? (name value : String) : Option CharSet :=
  match name with
  | "gc" | "generalcategory" => categorySet? value
  | "sc" | "script" => scriptSet? value
  | _ => none

/-- The set of `name`, `name=value`, `name:value` or `name!=value`, and whether it is negated. -/
def namedSet? (text : List Char) : Option (Bool × CharSet) :=
  let valued (negated : Bool) (cut : List Char × List Char) : Option (Bool × CharSet) :=
    (valueSet? (normalized cut.1) (normalized cut.2)).map (negated, ·)
  match Text.cutAt? ['!', '='] text, Text.cutAt? [':'] text, Text.cutAt? ['='] text with
  | some cut, _, _ => valued true cut
  | none, some cut, _ => valued false cut
  | none, none, some cut => valued false cut
  | none, none, none => (propertySet? (normalized text)).map (false, ·)

def readProperty (negated : Bool) : Reading Atom := do
  let flags ← flags
  advance
  let c ← next
  let (inverted, s) ←
    if c == '\x7b' then do
      advance
      let text ← takeAllSpaced (· != '\x7d')
      expect '\x7d'
      namedSet? text
    else if c == '\\' then failure
    else do
      bump
      skipSpace
      namedSet? [c]
  if !flags.unicode then failure
  return .set (← finishSet? flags (negated != inverted) s)

/-- The class that a letter names, under the flag that widens it beyond ASCII. -/
def letterSet (unicode : Bool) : Char → CharSet
  | 'd' => if unicode then .digit else .range '0' '9'
  | 's' => if unicode then .blank else .ofRanges [('\t', '\r'), (' ', ' ')]
  | _ => if unicode then .word else Look.asciiWord

def readLetterClass (c : Char) : Reading Atom := do
  bump
  let unicode := (← flags).unicode
  if c.isLower then return .set (letterSet unicode c)
  else if unicode then return .set (.compl (letterSet unicode c.toLower))
  else failure

def wordEdge? : String → Option WordEdge
  | "start" => some .start
  | "end" => some .finish
  | "start-half" => some .startHalf
  | "end-half" => some .finishHalf
  | _ => none

/-- The name in braces that may follow `\b`. Braces that hold no letter or dash are left for a
repetition. -/
def readWordEdge : Reading WordEdge := do
  let isNameChar (c : Char) : Bool := c.isAlpha || c == '-'
  let here ← get
  if (← peek?) == some '\x7b' then
    advance
    if isNameChar (← next) then
      let name ← takeAllSpaced isNameChar
      expect '\x7d'
      wordEdge? (String.ofList name)
    else
      set here
      return .boundary
  else return .boundary

def readEscape : Reading Atom := do
  bump
  let c ← next
  let look (l : Look) : Reading Atom := return .look l
  let char (c : Char) : Reading Atom := return .char c false
  let ascii := !(← flags).unicode
  match c with
  | 'x' => readCode 2
  | 'u' => readCode 4
  | 'U' => readCode 8
  | 'p' => readProperty false
  | 'P' => readProperty true
  | 'd' | 's' | 'w' | 'D' | 'S' | 'W' => readLetterClass c
  | _ =>
    bump
    match c with
    | 'a' => char '\x07'
    | 'f' => char '\x0c'
    | 't' => char '\t'
    | 'n' => char '\n'
    | 'r' => char '\r'
    | 'v' => char '\x0b'
    | 'A' => look .textStart
    | 'z' => look .textEnd
    | 'b' => return .look (.word (← readWordEdge) ascii)
    | 'B' => look (.word .interior ascii)
    | '<' => look (.word .start ascii)
    | '>' => look (.word .finish ascii)
    | _ => if c.toNat < 128 && !c.isAlphanum then char c else failure

end ClassSkeleton.Pattern.Grammar
