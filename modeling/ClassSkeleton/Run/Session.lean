import ClassSkeleton.Run.Generate
import ClassSkeleton.Run.Store

namespace ClassSkeleton.Run

/-!
# Sessions

A session holds all that a run can see and change: a store, the text on standard input and what
has been printed. It is a host without a clock.
-/

structure Session where
  store : Store
  input : Except DiskError String
  out : String
  err : String

abbrev SessionM := StateM Session

namespace Session

def ofStore (store : Store) (input : Except DiskError String) : Session := ⟨store, input, "", ""⟩

/-- Looks at the store. -/
def look {α : Type} (f : Store → α) : SessionM α := do return f (← get).store

/-- Changes the store, unless that fails. -/
def change {α : Type} (f : Store → Except DiskError (α × Store)) :
    SessionM (Except DiskError α) := do
  let session ← get
  match f session.store with
  | .error e => return .error e
  | .ok (result, store) =>
    StateT.set { session with store := store }
    return .ok result

def changeOnly (f : Store → Except DiskError Store) : SessionM (Except DiskError Unit) :=
  change fun store => (f store).map fun store => ((), store)

/-- Writes into the store. A failure may leave a part of the text there. -/
def write (l : Location) (text : String) : SessionM (Except DiskError Unit) := do
  let session ← get
  let (failure, store) := session.store.write l text
  StateT.set { session with store := store }
  match failure with
  | some e => return .error e
  | none => return .ok ()

def host : Host SessionM where
  File := Location
  isFile p := look (·.isFile p)
  isFolder p := look (·.isFolder p)
  filesBelow p := look (·.filesBelow p)
  readText p := look (·.readText p)
  makeFolder p := changeOnly (·.makeFolder p)
  create p := change (·.create p)
  write := write
  flush l := look fun store => match store.refused .flush l with
    | some e => .error e
    | none => .ok ()
  remove p := changeOnly (·.remove p)
  readInput := do return (← get).input
  putOut text := modify fun session => { session with out := session.out ++ text }
  putErr text := modify fun session => { session with err := session.err ++ text }
  elapsed := pure none

/-- Carries out a command line in a session. -/
def run (session : Session) (program : String) (args : List String) : Status × Session :=
  (host.run program args).run session

end Session

end ClassSkeleton.Run
