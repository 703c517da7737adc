import ClassSkeleton.Run.Path

namespace ClassSkeleton.Run

/-!
# Hosts

A run reads and writes files and talks to its streams through a host. Every operation of a host
may fail in the way a disk does, and a run goes on from there.
-/

/-- Why an operation on files fails. -/
inductive DiskError where
  | missing
  | denied
  | occupied
  | notFolder
  | isFolder
  | noSpace
  | nameTooLong
  | nameWithNul
  | notText
  | other (text : String)
  deriving DecidableEq, Repr

namespace DiskError

def message : DiskError → String
  | missing => "No such file or directory (os error 2)"
  | denied => "Permission denied (os error 13)"
  | occupied => "File exists (os error 17)"
  | notFolder => "Not a directory (os error 20)"
  | isFolder => "Is a directory (os error 21)"
  | noSpace => "No space left on device (os error 28)"
  | nameTooLong => "File name too long (os error 36)"
  | nameWithNul => "file name contained an unexpected NUL byte"
  | notText => "stream did not contain valid UTF-8"
  | other text => text

end DiskError

/-- The operations that a run needs. `create` empties a file that is there already. -/
structure Host (m : Type → Type) where
  File : Type
  isFile : Path → m Bool
  isFolder : Path → m Bool
  /-- The files below a folder, each folder in the order of the names in it. -/
  filesBelow : Path → m (List Path)
  readText : Path → m (Except DiskError String)
  /-- Makes a folder whose parent is there. -/
  makeFolder : Path → m (Except DiskError Unit)
  create : Path → m (Except DiskError File)
  write : File → String → m (Except DiskError Unit)
  flush : File → m (Except DiskError Unit)
  remove : Path → m (Except DiskError Unit)
  readInput : m (Except DiskError String)
  putOut : String → m Unit
  putErr : String → m Unit
  /-- The microseconds since the start, where there is a clock. -/
  elapsed : m (Option Nat)

namespace Host

variable {m : Type → Type} [Monad m]

/-- Creates a file and writes its whole text. -/
def writeFile (h : Host m) (path : Path) (text : String) : m (Except DiskError Unit) := do
  match ← h.create path with
  | .error e => return .error e
  | .ok file =>
    match ← h.write file text with
    | .error e => return .error e
    | .ok () => h.flush file

/-- A folder that could not be made is no failure if it is there. -/
def settle (h : Host m) (p : Path) (made : Except DiskError Unit) : m (Except DiskError Unit) := do
  match made with
  | .ok () => return .ok ()
  | .error e => return if ← h.isFolder p then .ok () else .error e

/-- Makes a folder after those that it stands in, where `parents` of them may be missing. -/
def makeFoldersFrom (h : Host m) (parents : Nat) (p : Path) : m (Except DiskError Unit) := do
  match ← h.makeFolder p with
  | .error .missing =>
    match parents, p.parent? with
    | parents + 1, some parent =>
      match ← makeFoldersFrom h parents parent with
      | .error e => return .error e
      | .ok () => h.settle p (← h.makeFolder p)
    | _, _ => return .error .missing
  | made => h.settle p made

def makeFolders (h : Host m) (p : Path) : m (Except DiskError Unit) :=
  h.makeFoldersFrom p.components.length p

end Host

end ClassSkeleton.Run
