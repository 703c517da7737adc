import ClassSkeleton.Compile
import ClassSkeleton.Run.Log

namespace ClassSkeleton.Run

/-!
# The progress of a run

A run writes the classes of its inputs one after the other. It knows every file it has written
with the input that the class came from, and everything that has failed. A file that has been
written in a run is never written again.
-/

/-- Something that a run could not do. -/
inductive Failure where
  | unread (input : Path) (why : DiskError)
  | problem (p : Problem)
  deriving DecidableEq, Repr

namespace Failure

def render (f : Failure) (source : String) (input : Path) : String :=
  match f with
  | unread input why => "Error: cannot read " ++ input.text ++ ": " ++ why.message ++ "\n"
  | problem p => p.render source input.text

end Failure

structure Progress where
  written : List (Path × Path)
  failures : List Failure

namespace Progress

def start : Progress := ⟨[], []⟩

/-- The input that a file was written for. -/
def owner? (p : Progress) (file : Path) : Option Path :=
  (p.written.find? fun entry => entry.1.same file).map (·.2)

def wrote (p : Progress) (file input : Path) : Progress :=
  { p with written := p.written ++ [(file, input)] }

def failed (p : Progress) (f : Failure) : Progress := { p with failures := p.failures ++ [f] }

def count (p : Progress) : Nat := p.written.length

def isSuccess (p : Progress) : Bool := p.failures.isEmpty

end Progress

/-- What is generated: the rules, the options and the folder for the files. -/
structure Job where
  rules : Rules.RuleSet
  options : Skeleton.Options
  output : Path
  verbose : Bool

namespace Host

variable {m : Type → Type} [Monad m]

/-- Writes the file of a unit into a folder. No part of it stays behind if that fails. -/
def writeUnit (h : Host m) (folder : Path) (u : Skeleton.SourceUnit) :
    m (Except Problem Path) := do
  let file := folder.join u.fileName
  match ← h.writeFile file u.code with
  | .ok () => return .ok file
  | .error e =>
    if ← h.isFile file then
      let _ ← h.remove file
    return .error (.unwritten file.text e.message)

def report (h : Host m) (input : Path) (source : String) (p : Progress) (f : Failure) :
    m Progress := do
  h.putErr (f.render source input)
  return p.failed f

/-- Writes a unit, unless its file has been written for a class before it. -/
def place (h : Host m) (folder input : Path) (source : String) (p : Progress)
    (u : Skeleton.SourceUnit) : m Progress := do
  match p.owner? (folder.join u.fileName) with
  | some first =>
    h.report input source p (.problem (.duplicate u.name u.fileName first.text))
  | none =>
    match ← h.writeUnit folder u with
    | .ok file =>
      h.putErr ("  ✓ " ++ file.text ++ "\n")
      return p.wrote file input
    | .error problem => h.report input source p (.problem problem)

/-- Reads an input and writes all its classes. -/
def processFile (h : Host m) (job : Job) (p : Progress) (input : Path) : m Progress := do
  h.inform job.verbose [input.text]
  match ← h.readText input with
  | .error e => h.report input "" p (.unread input e)
  | .ok source =>
    h.warn (compileWarnings job.rules job.options source)
    match compile job.rules job.options source with
    | .error why => h.report input source p (.problem (.unreadable why))
    | .ok compiled =>
      let p ← compiled.units.foldlM (h.place job.output input source) p
      compiled.problems.foldlM (fun p problem => h.report input source p (.problem problem)) p

def processFiles (h : Host m) (job : Job) (inputs : List Path) : m Progress :=
  inputs.foldlM (h.processFile job) .start

end Host

end ClassSkeleton.Run
