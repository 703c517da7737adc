import ClassSkeleton.Pattern.Grammar.Escape

namespace ClassSkeleton.Pattern.Grammar

/-!
# Bracket expressions

Items side by side form a union. Unions are joined by `&&`, `--` and `~~`, from left to right
and with equal weight. Brackets nest, and each bracket applies the case flag and its negation.
-/

/-- A set with the depth of the expression that it was read from. -/
structure Operand where
  set : CharSet
  depth : Nat

inductive SetOp where
  | inter
  | diff
  | symmDiff

namespace SetOp

def apply : SetOp → CharSet → CharSet → CharSet
  | inter => .inter
  | diff => .diff
  | symmDiff => .symmDiff

/-- The operator that stands at the front of a text. -/
def ofText? : List Char → Option SetOp
  | '&' :: '&' :: _ => some inter
  | '-' :: '-' :: _ => some diff
  | '~' :: '~' :: _ => some symmDiff
  | _ => none

end SetOp

def deepest (operands : List Operand) : Nat := operands.foldl (fun n o => max n o.depth) 0

def unionOf (operands : List Operand) : Operand :=
  match operands with
  | [only] => only
  | _ =>
    ⟨.unions (operands.map (·.set)), if operands.isEmpty then 0 else deepest operands + 1⟩

/-- Joins the operand on the left, if there is one, with the union of the items behind it. -/
def joinOperands (flags : Flags) (left : Option (SetOp × Operand)) (items : List Operand) :
    Operand :=
  let right := unionOf items
  match left with
  | none => right
  | some (op, left) =>
    let fold (s : CharSet) : CharSet :=
      if flags.ignoreCase then (if flags.unicode then .folded s else .foldedAscii s) else s
    ⟨op.apply (fold left.set) (fold right.set), max left.depth right.depth + 1⟩

/-- A class `[:name:]` or `[:^name:]`, from behind its opening bracket. -/
def posixClass? (text : List Char) : Option (Bool × CharSet × List Char) :=
  match text with
  | ':' :: rest =>
    let (negated, rest) := match rest with
      | '^' :: rest => (true, rest)
      | _ => (false, rest)
    let name := rest.takeWhile (· != ':')
    match rest.dropWhile (· != ':') with
    | ':' :: ']' :: tail => (CharSet.posix? (String.ofList name)).map (negated, ·, tail)
    | _ => none
  | _ => none

/-- The first item behind the next character; a comment counts as one from its first blank on. -/
def peekPast (spaced : Bool) (rest : List Char) : Option Char :=
  let rec item (comment : Bool) : List Char → Option Char
    | [] => rest.head?
    | c :: more =>
      if Unicode.isBlank c then item comment more
      else if !comment && c == '#' then item true more
      else some c
  if spaced then item false rest else rest.head?

def readItem : Reading Atom := do
  let c ← next
  if c == '\\' then readEscape
  else
    bump
    return .char c false

/-- The member of a bracket that a character gives; without the Unicode flag it is a byte. -/
def member? (flags : Flags) : Atom → Option Char
  | .char c byte =>
    if flags.unicode || c.toNat < 128 || (byte && c.toNat < 256) then some c else none
  | _ => none

/-- A single item, or a range of characters around a dash. A dash in front of `]` or of another
dash makes no range. -/
def readRange : Reading Operand := do
  let flags ← flags
  let first ← readItem
  skipSpace
  let dash ← next
  let past := peekPast flags.spaced (← get).rest.tail
  if dash != '-' || past == some ']' || past == some '-' then
    match first with
    | .set s => return ⟨s, 0⟩
    | .look _ => failure
    | .char _ _ => return ⟨.one (← member? flags first), 0⟩
  else
    advance
    let last ← readItem
    let lo ← member? flags first
    let hi ← member? flags last
    if lo ≤ hi then return ⟨.range lo hi, 0⟩ else failure

/-- The dashes at the front of a bracket, each standing for itself. -/
def readDashes : Nat → Reading (List Operand)
  | 0 => pure []
  | fuel + 1 => do
    if (← next) == '-' then
      advance
      return ⟨.one '-', 0⟩ :: (← readDashes fuel)
    else pure []

/-- What the front of a bracket holds: its negation, then dashes or a closing bracket that
stand for themselves. -/
def readFront : Reading (Bool × List Operand) := do
  advance
  let negated := (← next) == '^'
  if negated then advance
  let dashes ← readDashes (← get).rest.length
  if dashes.isEmpty && (← next) == ']' then
    advance
    return (negated, [⟨.one ']', 0⟩])
  else return (negated, dashes)

mutual

/-- Reads a bracket from its opening character to its closing one. -/
def readBracket : Nat → Reading Operand
  | 0 => failure
  | fuel + 1 => do
    let (negated, items) ← readFront
    let inner ← readItems fuel none items
    let s ← finishSet? (← flags) negated inner.set
    return ⟨s, inner.depth + 1⟩

/-- Reads the items up to the closing bracket, and that bracket. -/
def readItems : Nat → Option (SetOp × Operand) → List Operand → Reading Operand
  | 0, _, _ => failure
  | fuel + 1, left, items => do
    skipSpace
    let flags ← flags
    let rest := (← get).rest
    match rest with
    | [] => failure
    | ']' :: _ =>
      bump
      return joinOperands flags left items
    | '[' :: inner =>
      match posixClass? inner with
      | some (negated, s, tail) =>
        modify fun cursor => { cursor with rest := tail }
        let s ← finishSet? flags negated s
        readItems fuel left (items ++ [⟨s, 0⟩])
      | none =>
        let nested ← readBracket fuel
        readItems fuel left (items ++ [nested])
    | _ =>
      match SetOp.ofText? rest with
      | some op =>
        bump
        bump
        readItems fuel (some (op, joinOperands flags left items)) []
      | none =>
        let item ← readRange
        readItems fuel left (items ++ [item])

end

end ClassSkeleton.Pattern.Grammar
