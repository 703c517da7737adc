import ClassSkeleton.Run.Host
import ClassSkeleton.Text.Cut

namespace ClassSkeleton.Run

/-!
# Stores

A store is a tree of folders and files without links, with a working folder for paths that are
not absolute. It may refuse operations that its tree would allow, as a disk does that is full or
protected.
-/

/-- The names from the root down to a node. -/
abbrev Location := List String

/-- A folder, or a file with its text. The content of a file may be no text. -/
inductive Node where
  | folder
  | file (text : Option String)
  deriving DecidableEq, Repr

inductive Action where
  | read
  | create
  | write
  | flush
  | remove
  deriving DecidableEq, Repr

/-- The nodes by their locations, the working folder, the actions that are refused, and the number
of characters that arrive of a text whose writing is refused. -/
structure Store where
  nodes : List (Location × Node)
  here : Location
  refused : Action → Location → Option DiskError
  arriving : Location → Nat

namespace Store

/-- The store with nothing in it but its root, which refuses nothing. -/
def empty : Store := ⟨[], [], fun _ _ => none, fun _ => 0⟩

/-- The node at a location. The root is always there. -/
def node? (s : Store) (l : Location) : Option Node :=
  if l = [] then some .folder else s.nodes.lookup l

def put (s : Store) (l : Location) (n : Node) : Store :=
  { s with nodes := (l, n) :: s.nodes.filter (·.1 ≠ l) }

def erase (s : Store) (l : Location) : Store :=
  { s with nodes := s.nodes.filter (·.1 ≠ l) }

theorem lookup_filter_ne {l k : Location} (h : k ≠ l) (nodes : List (Location × Node)) :
    (nodes.filter (·.1 ≠ l)).lookup k = nodes.lookup k := by
  induction nodes with
  | nil => rfl
  | cons entry rest ih =>
    obtain ⟨key, n⟩ := entry
    by_cases hkey : key = l
    · subst hkey
      simp only [ne_eq, not_true, decide_false, Bool.false_eq_true, not_false_eq_true,
        List.filter_cons_of_neg, ih]
      rw [List.lookup_cons, beq_false_of_ne h]
    · simp only [ne_eq, hkey, not_false_eq_true, decide_true, List.filter_cons_of_pos,
        List.lookup_cons, ih]

@[simp] theorem node?_put_self (s : Store) {l : Location} (h : l ≠ []) (n : Node) :
    (s.put l n).node? l = some n := by
  simp [node?, put, h]

@[simp] theorem node?_put_of_ne (s : Store) {l k : Location} (h : k ≠ l) (n : Node) :
    (s.put l n).node? k = s.node? k := by
  unfold node?
  split
  · rfl
  · simp only [put, List.lookup_cons, beq_false_of_ne h]
    exact lookup_filter_ne h s.nodes

@[simp] theorem node?_erase_of_ne (s : Store) {l k : Location} (h : k ≠ l) :
    (s.erase l).node? k = s.node? k := by
  unfold node?
  split
  · rfl
  · exact lookup_filter_ne h s.nodes

/-- The most bytes that a name may have. -/
def nameLimit : Nat := 255

/-- The least number of bytes that is too many for a path. -/
def pathLimit : Nat := 4096

/-- Goes one piece of a path down from a folder. An empty piece and a dot stay in it. -/
def step (s : Store) (l : Location) (piece : List Char) : Except DiskError Location :=
  match s.node? l with
  | none => .error .missing
  | some (.file _) => .error .notFolder
  | some .folder =>
    if piece = [] ∨ piece = ['.'] then .ok l
    else if piece = ['.', '.'] then .ok l.dropLast
    else if nameLimit < Text.bytes piece then .error .nameTooLong
    else .ok (l ++ [String.ofList piece])

def walk (s : Store) : Location → List (List Char) → Except DiskError Location
  | l, [] => .ok l
  | l, piece :: rest => do walk s (← s.step l piece) rest

/-- What no path may hold. -/
def checkPath (p : Path) : Except DiskError Unit :=
  if '\x00' ∈ p.text.toList then .error .nameWithNul
  else if pathLimit ≤ Text.bytes p.text.toList then .error .nameTooLong
  else if p.text.isEmpty then .error .missing
  else .ok ()

def origin (s : Store) (p : Path) : Location := if p.isAbsolute then [] else s.here

/-- The location of a path and the node there. -/
def find (s : Store) (p : Path) : Except DiskError (Location × Node) := do
  checkPath p
  let l ← s.walk (s.origin p) p.pieces
  match s.node? l with
  | none => .error .missing
  | some n => .ok (l, n)

/-- The folder that the last name of a path stands in, that name, and whether a slash follows. -/
structure Target where
  folder : Location
  last : List Char
  slash : Bool

def target (s : Store) (p : Path) : Except DiskError Target := do
  checkPath p
  let backwards := p.pieces.reverse
  match backwards.dropWhile (·.isEmpty) with
  | [] => .ok ⟨[], [], true⟩
  | last :: before =>
    let folder ← s.walk (s.origin p) before.reverse
    let _ ← s.step folder []
    .ok ⟨folder, last, backwards.head? = some []⟩

/-- Whether a piece is no name of its own. -/
def isDots (piece : List Char) : Bool := piece = [] ∨ piece = ['.'] ∨ piece = ['.', '.']

def isFile (s : Store) (p : Path) : Bool :=
  match s.find p with
  | .ok (_, .file _) => true
  | _ => false

def isFolder (s : Store) (p : Path) : Bool :=
  match s.find p with
  | .ok (_, .folder) => true
  | _ => false

def readText (s : Store) (p : Path) : Except DiskError String := do
  let (l, n) ← s.find p
  match s.refused .read l, n with
  | some e, _ => .error e
  | none, .folder => .error .isFolder
  | none, .file none => .error .notText
  | none, .file (some text) => .ok text

/-- The order in which a tree is listed: a folder before what is in it, names in their order. -/
def listedBefore (k l : Location) : Bool := k < l ∨ k = l

/-- The names below a folder of all files in it. -/
def filesFrom (s : Store) (l : Location) : List Location :=
  let below := s.nodes.filterMap fun entry =>
    match entry.2 with
    | .folder => none
    | .file _ => if l.isPrefixOf entry.1 then some (entry.1.drop l.length) else none
  below.mergeSort listedBefore

def filesBelow (s : Store) (p : Path) : List Path :=
  match s.find p with
  | .ok (l, .folder) => (s.filesFrom l).map fun names => names.foldl Path.join p
  | _ => []

/-- Makes the folder of a path whose parent is there. -/
def makeFolder (s : Store) (p : Path) : Except DiskError Store := do
  let t ← s.target p
  if isDots t.last then .error .occupied
  let l ← s.step t.folder t.last
  if (s.node? l).isSome then .error .occupied
  match s.refused .create l with
  | some e => .error e
  | none => .ok (s.put l .folder)

/-- Creates an empty file, or empties the file that is there. -/
def create (s : Store) (p : Path) : Except DiskError (Location × Store) := do
  let t ← s.target p
  if t.slash ∨ isDots t.last then .error .isFolder
  let l ← s.step t.folder t.last
  if s.node? l = some .folder then .error .isFolder
  match s.refused .create l with
  | some e => .error e
  | none => .ok (l, s.put l (.file (some "")))

/-- Writes the text of a file that has just been created. -/
def write (s : Store) (l : Location) (text : String) : Option DiskError × Store :=
  match s.refused .write l with
  | none => (none, s.put l (.file (some text)))
  | some e => (some e, s.put l (.file (some (String.ofList (text.toList.take (s.arriving l))))))

def remove (s : Store) (p : Path) : Except DiskError Store := do
  let (l, n) ← s.find p
  match s.refused .remove l, n with
  | some e, _ => .error e
  | none, .folder => .error .isFolder
  | none, .file _ => .ok (s.erase l)

end Store

end ClassSkeleton.Run
