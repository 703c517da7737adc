import ClassSkeleton.Pattern.Grammar.Bracket

namespace ClassSkeleton.Pattern.Grammar

/-!
# Sequences, alternatives and groups

A pattern is a list of alternatives, each a sequence of pieces. A repetition applies to the
piece before it, and a group brings back the flags that were in force in front of it.
-/

/-- A piece of a sequence with the depth of its expression. Setting flags is no piece that can
be repeated. -/
structure Piece where
  node : Node
  depth : Nat
  isRepeatable : Bool

namespace Piece

def leaf (node : Node) : Piece := ⟨node, 0, true⟩

def setting : Piece := ⟨.empty, 0, false⟩

def deepest (pieces : List Piece) : Nat := pieces.foldl (fun n p => max n p.depth) 0

def chain : List Node → Node
  | [] => .empty
  | x :: rest => rest.foldl .cat x

def choice : List Node → Node
  | [] => .empty
  | [x] => x
  | x :: rest => .alt none x (choice rest)

def sequence (pieces : List Piece) : Piece :=
  let nodes := (pieces.filter (·.isRepeatable)).map (·.node)
  match pieces with
  | [] => leaf .empty
  | [only] => ⟨only.node, only.depth, true⟩
  | _ => ⟨chain nodes, deepest pieces + 1, true⟩

def alternatives (branches : List Piece) : Piece :=
  match branches with
  | [only] => only
  | _ => ⟨choice (branches.map (·.node)), deepest branches + 1, true⟩

end Piece

/-- No pattern may be nested deeper than this. -/
def depthLimit : Nat := 250

/-- No pattern may weigh more than this. -/
def weightLimit : Nat := 10 * 1024 * 1024

/-- The bounds of a repetition are below this number. -/
def countLimit : Nat := Nat.pow 2 32

def readDot : Reading Node := do
  let flags ← flags
  if !flags.unicode then failure
  if flags.dotAll then return .set .any
  else if flags.carriage then return .set (.compl (.ofRanges [('\r', '\r'), ('\n', '\n')]))
  else return .set (.compl (.one '\n'))

/-- A character of the pattern, which stands for itself or for the letters of its orbit. -/
def literal? (flags : Flags) (c : Char) (byte : Bool) : Option Node :=
  if flags.unicode then some (.set (if flags.ignoreCase then .folded (.one c) else .one c))
  else if byte && 128 ≤ c.toNat then none
  else some (.set (if flags.ignoreCase && c.isAlpha then .foldedAscii (.one c) else .one c))

def lineStart (flags : Flags) : Look :=
  if !flags.multiLine then .textStart
  else if flags.carriage then .carriageLineStart
  else .lineStart

def lineEnd (flags : Flags) : Look :=
  if !flags.multiLine then .textEnd
  else if flags.carriage then .carriageLineEnd
  else .lineEnd

/-- A character or an escape outside brackets. -/
def readLeaf : Reading Node := do
  let flags ← flags
  match ← next with
  | '.' =>
    bump
    readDot
  | '^' =>
    bump
    return .look (lineStart flags)
  | '$' =>
    bump
    return .look (lineEnd flags)
  | '\\' =>
    match ← readEscape with
    | .char c byte => literal? flags c byte
    | .set s => return .set s
    | .look l => return .look l
  | c =>
    bump
    literal? flags c false

/-- The bounds of a repetition and whether the longer choice is preferred. -/
structure Bounds where
  min : Nat
  max : Option Nat
  greedy : Bool

/-- A mark `?` turns the preference round, and so does the flag. -/
def readGreed : Reading Bool := do
  let lazy := (← peek?) == some '?'
  if lazy then bump
  return !lazy != (← flags).swapGreed

def readBlanks : Reading Unit :=
  modify fun cursor => { cursor with rest := cursor.rest.dropWhile Unicode.isBlank }

/-- A number in braces, with blanks around it. -/
def readCount : Reading Nat := do
  readBlanks
  let digits ← takeAllSpaced Char.isDigit
  readBlanks
  let n ← Text.number? 10 digits
  if digits.isEmpty || countLimit ≤ n then failure
  return n

/-- The bounds `{n}`, `{n,}` or `{n,m}`. -/
def readBraces : Reading Bounds := do
  advance
  let min ← readCount
  let max ← if (← next) == ',' then do
      advance
      if (← next) == '\x7d' then pure none else some <$> readCount
    else pure (some min)
  if (← next) != '\x7d' then failure
  bump
  skipSpace
  let greedy ← readGreed
  if max.any (· < min) then failure
  return ⟨min, max, greedy⟩

/-- Repeats the piece that was read last. -/
def repeatLast (bounds : Bounds) : List Piece → Option (List Piece)
  | [] => none
  | last :: before =>
    let copies := max 1 (max bounds.min (bounds.max.getD 0))
    if !last.isRepeatable || weightLimit < last.node.weight * copies then none
    else
      let node := last.node.repeated bounds.greedy bounds.min bounds.max
      some (⟨node, last.depth + 1, true⟩ :: before)

/-- Takes the letters of a flag group up to `:` or `)`. A letter and the dash may come once. -/
def switches? (flags : Flags) (seen : List Char) : List Char → Option (Flags × List Char)
  | [] => none
  | c :: rest =>
    if c == ':' || c == ')' then
      if seen.head? == some '-' || (c == ')' && seen.isEmpty) then none
      else some (flags, c :: rest)
    else if seen.contains c then none
    else if c == '-' then switches? flags (c :: seen) rest
    else
      match flags.switch? (!seen.contains '-') c with
      | some flags => switches? flags (c :: seen) rest
      | none => none

def isNameStart (c : Char) : Bool := c == '_' || Unicode.isAlphabetic c

def isNamePart (c : Char) : Bool :=
  c == '_' || c == '.' || c == '[' || c == ']' || Unicode.isAlphabetic c ||
    (if c.toNat < 128 then c.isDigit else Unicode.Category.numbers.contains (Unicode.category c))

/-- What an opening parenthesis begins. -/
inductive Opening where
  | setting
  | plain
  | capture (index : Nat)

def readCapture (named : Bool) : Reading Opening := do
  let cursor ← get
  let index := cursor.groups + 1
  if named then
    let name := cursor.rest.takeWhile (· != '>')
    let rest := cursor.rest.dropWhile (· != '>')
    let key := String.ofList name
    let wellFormed := match name with
      | [] => false
      | c :: more => isNameStart c && more.all isNamePart
    if !wellFormed || rest.isEmpty || (cursor.names.lookup key).isSome then failure
    set { cursor with rest := rest.tail, groups := index, names := (key, index) :: cursor.names }
  else set { cursor with groups := index }
  return .capture index

/-- Reads what follows an opening parenthesis: a look around is refused, a name or flags are
taken. -/
def readOpening : Reading Opening := do
  let rest := (← get).rest
  if [['?', '='], ['?', '!'], ['?', '<', '='], ['?', '<', '!']].any (·.isPrefixOf rest) then
    failure
  if ← takes ['?', 'P', '<'] then readCapture true
  else if ← takes ['?', '<'] then readCapture true
  else if ← takes ['?'] then
    let (flags, rest) ← switches? (← flags) [] (← get).rest
    modify fun cursor => { cursor with rest := rest.tail, flags }
    return if rest.head? == some ')' then .setting else .plain
  else readCapture false

mutual

/-- Reads alternatives up to the end of the text or a closing parenthesis. -/
def readBranches : Nat → Reading (List Piece)
  | 0 => failure
  | fuel + 1 => do
    let branch ← readSequence fuel []
    if (← peek?) == some '|' then
      bump
      return branch :: (← readBranches fuel)
    else return [branch]

/-- Reads pieces behind those of `done`, the latest first. -/
def readSequence : Nat → List Piece → Reading Piece
  | 0, _ => failure
  | fuel + 1, done => do
    skipSpace
    match ← peek? with
    | none | some ')' | some '|' => return .sequence done.reverse
    | some '(' =>
      let outer ← flags
      bump
      skipSpace
      match ← readOpening with
      | .setting => readSequence fuel (.setting :: done)
      | .plain =>
        let inner := Piece.alternatives (← readBranches fuel)
        expect ')'
        setFlags outer
        readSequence fuel (⟨inner.node, inner.depth + 1, true⟩ :: done)
      | .capture index =>
        let inner := Piece.alternatives (← readBranches fuel)
        expect ')'
        setFlags outer
        readSequence fuel (⟨.group index inner.node, inner.depth + 1, true⟩ :: done)
    | some '[' =>
      let operand ← readBracket fuel
      readSequence fuel (⟨.set operand.set, operand.depth, true⟩ :: done)
    | some '?' =>
      bump
      readSequence fuel (← repeatLast ⟨0, some 1, ← readGreed⟩ done)
    | some '*' =>
      bump
      readSequence fuel (← repeatLast ⟨0, none, ← readGreed⟩ done)
    | some '+' =>
      bump
      readSequence fuel (← repeatLast ⟨1, none, ← readGreed⟩ done)
    | some '\x7b' =>
      readSequence fuel (← repeatLast (← readBraces) done)
    | some _ => readSequence fuel (.leaf (← readLeaf) :: done)

end

/-- The tree of a whole pattern and the numbers of its named groups. -/
def read? (source : List Char) : Option (Node × List (String × Nat)) := do
  let cursor : Cursor := ⟨source, .initial, 0, []⟩
  let (branches, cursor) ← (readBranches (3 * source.length + 3)).run cursor
  let whole := Piece.alternatives branches
  if cursor.rest.isEmpty && whole.depth ≤ depthLimit && whole.node.weight ≤ weightLimit then
    some ((whole.node.gated false 0).1, cursor.names)
  else none

end ClassSkeleton.Pattern.Grammar
