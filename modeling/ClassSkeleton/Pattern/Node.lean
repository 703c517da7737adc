import ClassSkeleton.Pattern.CharSet

namespace ClassSkeleton.Pattern

/-!
# Pattern trees

A pattern is a tree of nodes: sets that take one character, assertions that take none, and
the ways to join them. Alternatives and repetitions say which choice is preferred.
-/

/-- Where a place stands with respect to the words of the text. -/
inductive WordEdge where
  | boundary
  | interior
  | start
  | finish
  | startHalf
  | finishHalf
  deriving DecidableEq, Repr

inductive Look where
  | textStart
  | textEnd
  | lineStart
  | lineEnd
  | carriageLineStart
  | carriageLineEnd
  | word (edge : WordEdge) (ascii : Bool)
  deriving DecidableEq, Repr

namespace Look

def asciiWord : CharSet := .ofRanges [('0', '9'), ('A', 'Z'), ('_', '_'), ('a', 'z')]

def isWord (ascii : Bool) (c : Char) : Bool :=
  if ascii then asciiWord.contains c else Unicode.isWord c

/-- Whether the assertion holds between `before`, read backwards, and `after`. -/
def holds : Look → List Char → List Char → Bool
  | textStart, before, _ => before.isEmpty
  | textEnd, _, after => after.isEmpty
  | lineStart, before, _ => before.isEmpty || before.head? == some '\n'
  | lineEnd, _, after => after.isEmpty || after.head? == some '\n'
  | carriageLineStart, before, after =>
    before.isEmpty || before.head? == some '\n' ||
      (before.head? == some '\r' && after.head? != some '\n')
  | carriageLineEnd, before, after =>
    after.isEmpty || after.head? == some '\r' ||
      (after.head? == some '\n' && before.head? != some '\r')
  | word edge ascii, before, after =>
    let left := before.head?.any (isWord ascii)
    let right := after.head?.any (isWord ascii)
    match edge with
    | .boundary => left != right
    | .interior => left == right
    | .start => !left && right
    | .finish => left && !right
    | .startHalf => !left
    | .finishHalf => !right

end Look

/-- A node with a `gate` can be passed only once at each place of the text. -/
inductive Node where
  | empty
  | set (s : CharSet)
  | look (l : Look)
  | cat (first second : Node)
  | alt (gate : Option Nat) (preferred other : Node)
  | run (greedy : Bool) (s : CharSet)
  | star (gate : Option Nat) (greedy : Bool) (body : Node)
  | plus (gate : Option Nat) (greedy : Bool) (body : Node)
  | group (index : Nat) (body : Node)

namespace Node

/-- Whether the node can match without taking a character. -/
def isNullable : Node → Bool
  | empty => true
  | set _ => false
  | look _ => true
  | cat a b => a.isNullable && b.isNullable
  | alt _ a b => a.isNullable || b.isNullable
  | run _ _ => true
  | star _ _ _ => true
  | plus _ _ x => x.isNullable
  | group _ x => x.isNullable

/-- Whether the node never takes a character. -/
def takesNone : Node → Bool
  | empty => true
  | set _ => false
  | look _ => true
  | cat a b => a.takesNone && b.takesNone
  | alt _ a b => a.takesNone && b.takesNone
  | run _ _ => false
  | star _ _ x => x.takesNone
  | plus _ _ x => x.takesNone
  | group _ x => x.takesNone

/-- An estimate, in bytes, of the automaton for the node. -/
def weight : Node → Nat
  | empty => 32
  | set s => s.weight
  | look _ => 32
  | cat a b => a.weight + b.weight
  | alt _ a b => a.weight + b.weight + 40
  | run _ s => s.weight + 40
  | star _ _ x => x.weight + 40
  | plus _ _ x => x.weight + 40
  | group _ x => x.weight + 64

def optional (greedy : Bool) (x : Node) : Node :=
  if greedy then alt none x empty else alt none empty x

/-- One or more copies of `x`. -/
def oneOrMore (greedy : Bool) : Node → Node
  | set s => cat (set s) (run greedy s)
  | x => plus none greedy x

/-- Any number of copies of `x`. -/
def zeroOrMore (greedy : Bool) : Node → Node
  | set s => run greedy s
  | x => if x.isNullable then optional greedy (plus none greedy x) else star none greedy x

/-- Exactly `n` copies of `x`. -/
def power (x : Node) : Nat → Node
  | 0 => empty
  | 1 => x
  | n + 1 => cat (power x n) x

/-- At most `n` copies of `x`, each one only behind the one before. -/
def upTo (greedy : Bool) (x : Node) : Nat → Node
  | 0 => empty
  | 1 => optional greedy x
  | n + 1 => optional greedy (cat x (upTo greedy x n))

/-- From `min` to `max` copies of `x`, without limit where `max` is missing. A node that takes
no character is worth repeating once at most. -/
def repeated (greedy : Bool) (min : Nat) (max : Option Nat) (x : Node) : Node :=
  let min := if x.takesNone then Nat.min min 1 else min
  let max := if x.takesNone then some ((max.map (Nat.min · 1)).getD 1) else max
  match max with
  | some max =>
    if max = 0 then empty
    else if min = max then power x min
    else if min = 0 then upTo greedy x max
    else cat (power x min) (upTo greedy x (max - min))
  | none =>
    match min with
    | 0 => zeroOrMore greedy x
    | 1 => oneOrMore greedy x
    | n + 1 => cat (power x n) (oneOrMore greedy x)

/-- Numbers the choices inside repetitions whose body can match nothing, from `next` on. Such a
repetition may come back to a choice without having taken a character. -/
def gated (inside : Bool) : Node → Nat → Node × Nat
  | empty, next => (empty, next)
  | set s, next => (set s, next)
  | look l, next => (look l, next)
  | cat a b, next =>
    let (a, next) := gated inside a next
    let (b, next) := gated inside b next
    (cat a b, next)
  | alt _ a b, next =>
    let (a, last) := gated inside a (next + 1)
    let (b, last) := gated inside b last
    (alt (if inside then some next else none) a b, last)
  | run greedy s, next =>
    (if inside then star (some next) greedy (set s) else run greedy s, next + 1)
  | star _ greedy x, next =>
    let (x, last) := gated inside x (next + 1)
    (star (if inside then some next else none) greedy x, last)
  | plus _ greedy x, next =>
    let (y, last) := gated (inside || x.isNullable) x (next + 1)
    (plus (if inside then some next else none) greedy y, last)
  | group index x, next =>
    let (x, last) := gated inside x next
    (group index x, last)

end Node

end ClassSkeleton.Pattern
