import ClassSkeleton.Run.Generate

/-!
# The command line program

The files are those of the operating system, and the streams those of the process.
-/

namespace ClassSkeleton.Main

open ClassSkeleton.Run

/-- The error that the system reports by a number. -/
def errorOfCode (code : Nat) (text : String) : DiskError :=
  match code with
  | 2 => .missing
  | 13 => .denied
  | 17 => .occupied
  | 20 => .notFolder
  | 21 => .isFolder
  | 28 => .noSpace
  | 36 => .nameTooLong
  | _ => .other (text ++ " (os error " ++ toString code ++ ")")

def diskError (e : IO.Error) : DiskError :=
  match e with
  | .alreadyExists _ code text | .otherError code text | .resourceBusy code text
  | .resourceVanished code text | .unsupportedOperation code text | .hardwareFault code text
  | .unsatisfiedConstraints code text | .illegalOperation code text | .protocolError code text
  | .timeExpired code text | .interrupted _ code text | .noFileOrDirectory _ code text
  | .invalidArgument _ code text | .permissionDenied _ code text
  | .resourceExhausted _ code text | .inappropriateType _ code text
  | .noSuchThing _ code text => errorOfCode code.toNat text
  | .unexpectedEof => .other "unexpected end of file"
  | .userError text => .other text

def attempt {α : Type} (action : IO α) : IO (Except DiskError α) := do
  try return .ok (← action)
  catch e => return .error (diskError e)

def textOf (content : ByteArray) : Except DiskError String :=
  match String.fromUTF8? content with
  | some text => .ok text
  | none => .error .notText

def attemptText (action : IO ByteArray) : IO (Except DiskError String) := do
  return (← attempt action).bind textOf

/-- What the system knows of a path. -/
def entry (p : Path) : IO.FS.DirEntry := ⟨p.text, ""⟩

def isOfType (p : Path) (type : IO.FS.FileType) : IO Bool := do
  try return (← (entry p).root.metadata).type == type
  catch _ => return false

/-- The names below a folder on the way to a path that has been found in it. -/
def namesBelow (folder found : Path) : List String :=
  (found.components.drop folder.components.length).map Component.text

/-- Folders that cannot be read are left out, and links are not followed. -/
def filesBelow (p : Path) : IO (List Path) := do
  let top := (entry p).root
  let found ← top.walkDir fun folder => do
    try
      let _ ← folder.readDir
      return folder == top || (← folder.symlinkMetadata).type == .dir
    catch _ => return false
  let files ← found.toList.filterM fun file => do
    try return (← file.symlinkMetadata).type == .file
    catch _ => return false
  let names := files.map fun file => namesBelow p ⟨file.toString⟩
  return (names.mergeSort fun k l => k < l || k == l).map fun names => names.foldl Path.join p

def host (started : Nat) : Host IO where
  File := IO.FS.Handle
  isFile p := isOfType p .file
  isFolder p := isOfType p .dir
  filesBelow := filesBelow
  readText p := attemptText (IO.FS.readBinFile p.text)
  makeFolder p := attempt (IO.FS.createDir p.text)
  create p := attempt (IO.FS.Handle.mk p.text .write)
  write file text := attempt (file.putStr text)
  flush file := attempt file.flush
  remove p := attempt (IO.FS.removeFile p.text)
  readInput := do attemptText (← IO.getStdin).readBinToEnd
  putOut text := IO.print text
  putErr text := IO.eprint text
  elapsed := do return some (((← IO.monoNanosNow) - started) / 1000)

/-- Carries out the command line of the process. -/
def start (args : List String) : IO UInt32 := do
  let program := (← IO.appPath).fileName.getD "class-skeleton"
  let status ← (host (← IO.monoNanosNow)).run program args
  return status.code.toUInt32

end ClassSkeleton.Main

def main (args : List String) : IO UInt32 := ClassSkeleton.Main.start args
