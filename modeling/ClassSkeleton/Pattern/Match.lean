import ClassSkeleton.Pattern.Node

namespace ClassSkeleton.Pattern

/-!
# Matching

A node is run from a spot of the text and answers with the spots where it can end, the
preferred one first. A spot that is reached twice counts once, at its first arrival.
-/

/-- A place in the text with what has been recorded on the way to it: the texts of the groups,
the latest first, and the gates passed since a character was last taken. -/
structure Spot where
  taken : Nat
  before : List Char
  after : List Char
  groups : List (Nat × List Char)
  gates : List Nat

namespace Spot

/-- The start of an attempt between `before`, read backwards, and `after`. -/
def start (before after : List Char) : Spot := ⟨0, before, after, [], []⟩

def step (s : Spot) (c : Char) (rest : List Char) : Spot :=
  ⟨s.taken + 1, c :: s.before, rest, s.groups, []⟩

/-- Records the text between `origin` and `s` as that of a group. -/
def record (index : Nat) (origin s : Spot) : Spot :=
  { s with groups := (index, origin.after.take (s.taken - origin.taken)) :: s.groups }

def isOpen (gate : Option Nat) (s : Spot) : Bool :=
  match gate with
  | none => true
  | some g => !s.gates.contains g

def pass (gate : Option Nat) (s : Spot) : Spot :=
  match gate with
  | none => s
  | some g => { s with gates := g :: s.gates }

end Spot

/-- Drops the spots that stand at a place of `seen` or of an earlier spot. -/
def firstArrivals (seen : List Nat) : List Spot → List Spot
  | [] => []
  | s :: rest =>
    if seen.contains s.taken then firstArrivals seen rest
    else s :: firstArrivals (s.taken :: seen) rest

/-- The ends of a run of characters of `chars`, the nearest first. -/
def runEnds (chars : CharSet) (s : Spot) : List Char → List Spot
  | [] => [s]
  | c :: rest => if chars.contains c then s :: runEnds chars (s.step c rest) rest else [s]

/-- What is left to do in a loop: arrive at its head, or leave it from there. -/
inductive Errand where
  | arrive (s : Spot)
  | leave (s : Spot)

/-- The ends of a loop, in the order in which the errands come up. The head is entered once at
each place, and where it stands at `barred` the body is not tried again. -/
def loopEnds (body : Spot → List Spot) (gate : Option Nat) (greedy : Bool)
    (barred : Option Nat) : Nat → List Nat → List Errand → List Spot
  | 0, _, _ => []
  | _ + 1, _, [] => []
  | fuel + 1, seen, .leave s :: rest =>
    s :: loopEnds body gate greedy barred fuel seen rest
  | fuel + 1, seen, .arrive s :: rest =>
    if seen.contains s.taken || !s.isOpen gate then
      loopEnds body gate greedy barred fuel seen rest
    else
      let s := s.pass gate
      let again := if barred == some s.taken then [] else (body s).map Errand.arrive
      let errands := if greedy then again ++ .leave s :: rest else .leave s :: again ++ rest
      loopEnds body gate greedy barred fuel (s.taken :: seen) errands

/-- Enough steps for a loop from `s`: each place is entered once, and sends at most one errand
to every other place. -/
def loopFuel (s : Spot) : Nat := (s.after.length + 2) * (s.after.length + 2) + 1

/-- The spots where a node can end when it is run from a spot, the preferred one first. -/
def Node.ends : Node → Spot → List Spot
  | .empty, s => [s]
  | .set chars, s =>
    match s.after with
    | [] => []
    | c :: rest => if chars.contains c then [s.step c rest] else []
  | .look l, s => if l.holds s.before s.after then [s] else []
  | .cat a b, s => firstArrivals [] ((a.ends s).flatMap b.ends)
  | .alt gate a b, s =>
    if s.isOpen gate then
      let s := s.pass gate
      firstArrivals [] (a.ends s ++ b.ends s)
    else []
  | .run greedy chars, s =>
    let found := runEnds chars s s.after
    if greedy then found.reverse else found
  | .star gate greedy x, s =>
    loopEnds x.ends gate greedy none (loopFuel s) [] [.arrive s]
  | .plus gate greedy x, s =>
    loopEnds x.ends gate greedy (some s.taken) (loopFuel s) [] ((x.ends s).map Errand.arrive)
  | .group index x, s => (x.ends s).map (s.record index)

@[simp] theorem firstArrivals_nil (seen : List Nat) : firstArrivals seen [] = [] := rfl

@[simp] theorem firstArrivals_single (s : Spot) : firstArrivals [] [s] = [s] := rfl

theorem mem_of_mem_firstArrivals {seen : List Nat} {s : Spot} {spots : List Spot}
    (h : s ∈ firstArrivals seen spots) : s ∈ spots := by
  induction spots generalizing seen with
  | nil => simp [firstArrivals] at h
  | cons t spots ih =>
    rw [firstArrivals] at h
    split at h
    · exact List.mem_cons_of_mem t (ih h)
    · rcases List.mem_cons.mp h with rfl | h
      · exact List.mem_cons_self
      · exact List.mem_cons_of_mem t (ih h)

theorem head?_firstArrivals (spots : List Spot) :
    (firstArrivals [] spots).head? = spots.head? := by
  cases spots <;> rfl

/-- The text and the record of one match. -/
structure Match where
  length : Nat
  groups : List (Nat × List Char)

/-- The match of a node that begins between `before`, read backwards, and `after`. Group 0 is
the whole of the match. -/
def Node.matchAt? (x : Node) (before after : List Char) : Option Match :=
  (x.ends (.start before after)).head?.map fun s =>
    ⟨s.taken, s.groups ++ [(0, after.take s.taken)]⟩

/-- The text of a group; one that took no part in the match has none. -/
def Match.group? (m : Match) (index : Nat) : Option (List Char) := m.groups.lookup index

end ClassSkeleton.Pattern
