import ClassSkeleton.Run.Host
import ClassSkeleton.Skeleton.Warnings

namespace ClassSkeleton.Run

/-!
# Log lines

Warnings are always logged. What a run is doing is logged if it has been asked to tell.
-/

/-- A text whose lines behind the first one are indented. -/
def hanging (text : List Char) : List Char :=
  text.flatMap fun c => if c = '\n' then "\n    ".toList else [c]

def logLine (level text : String) : String :=
  "[" ++ level ++ "] " ++ String.ofList (hanging text.toList) ++ "\n"

namespace Host

variable {m : Type → Type} [Monad m]

def warn (h : Host m) (warnings : List Skeleton.Warning) : m Unit :=
  h.putErr (String.join (warnings.map fun w => logLine "WARN " w.message))

def inform (h : Host m) (verbose : Bool) (texts : List String) : m Unit :=
  h.putErr (if verbose then String.join (texts.map (logLine "INFO ")) else "")

end Host

end ClassSkeleton.Run
