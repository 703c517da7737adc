namespace ClassSkeleton.Run

/-!
# Paths

A path is kept as it was written. Two spellings name the same place if their components agree:
repeated slashes, a slash at the end and dots behind the first component do not count.
-/

structure Path where
  text : String
  deriving DecidableEq, Repr

inductive Component where
  | root
  | here
  | up
  | name (s : String)
  deriving DecidableEq, Repr

def Component.text : Component → String
  | root => ""
  | here => "."
  | up => ".."
  | name s => s

/-- The texts between the slashes. There is always one more of them than slashes. -/
def pieces : List Char → List (List Char)
  | [] => [[]]
  | c :: rest =>
    if c = '/' then [] :: pieces rest
    else
      match pieces rest with
      | [] => [[c]]
      | piece :: others => (c :: piece) :: others

theorem pieces_ne_nil (text : List Char) : pieces text ≠ [] := by
  cases text with
  | nil => simp [pieces]
  | cons c rest =>
    unfold pieces
    split
    · simp
    · split <;> simp

theorem pieces_of_not_mem {text : List Char} (h : '/' ∉ text) : pieces text = [text] := by
  induction text with
  | nil => rfl
  | cons c rest ih =>
    obtain ⟨hc, hrest⟩ := not_or.mp (mt List.mem_cons.mpr h)
    rw [pieces, if_neg (Ne.symm hc), ih hrest]

theorem pieces_append_slash (text rest : List Char) :
    pieces (text ++ '/' :: rest) = pieces text ++ pieces rest := by
  induction text with
  | nil => rfl
  | cons c text ih =>
    by_cases hc : c = '/'
    · rw [List.cons_append, pieces, if_pos hc, ih, pieces, if_pos hc, List.cons_append]
    · obtain ⟨piece, others, hpieces⟩ := List.exists_cons_of_ne_nil (pieces_ne_nil text)
      rw [List.cons_append, pieces, if_neg hc, ih, pieces, if_neg hc, hpieces]
      rfl

namespace Path

def isAbsolute (p : Path) : Bool := p.text.toList.head? = some '/'

def pieces (p : Path) : List (List Char) := Run.pieces p.text.toList

/-- What a piece behind the first one stands for. -/
def component? (piece : List Char) : Option Component :=
  if piece = [] ∨ piece = ['.'] then none
  else if piece = ['.', '.'] then some .up
  else some (.name (String.ofList piece))

def components (p : Path) : List Component :=
  let first : List Component :=
    if p.isAbsolute then [.root] else if p.pieces.head? = some ['.'] then [.here] else []
  first ++ p.pieces.filterMap component?

def ofComponents (parts : List Component) : Path :=
  match parts with
  | .root :: below => ⟨"/" ++ "/".intercalate (below.map Component.text)⟩
  | _ => ⟨"/".intercalate (parts.map Component.text)⟩

/-- Whether two paths name the same place. -/
def same (p q : Path) : Bool := p.components = q.components

theorem same_self (p : Path) : p.same p := by simp [same]

/-- A path below a folder. An absolute path stays what it is. -/
def join (folder : Path) (below : String) : Path :=
  if below.toList.head? = some '/' then ⟨below⟩
  else if folder.text.toList.getLast?.all (· = '/') then ⟨folder.text ++ below⟩
  else ⟨folder.text ++ "/" ++ below⟩

/-- The path of the folder that the last component stands in. -/
def parent? (p : Path) : Option Path :=
  match p.components.reverse with
  | [] => none
  | [.root] => none
  | _ :: before => some (ofComponents before.reverse)

/-- What stands behind the last dot of a name, and whether anything stands before it. -/
def lastDot : List Char → Option (List Char × Bool)
  | [] => none
  | c :: rest =>
    match lastDot rest with
    | some (ending, _) => some (ending, true)
    | none => if c = '.' then some (rest, false) else none

/-- The extension of the last name. A dot in front of a name does not start one. -/
def extension? (p : Path) : Option String :=
  match p.components.getLast? with
  | some (.name s) =>
    match lastDot s.toList with
    | some (ending, true) => some (String.ofList ending)
    | _ => none
  | _ => none

end Path

end ClassSkeleton.Run
