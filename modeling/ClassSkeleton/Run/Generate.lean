import ClassSkeleton.Rules.Standard
import ClassSkeleton.Rules.Config
import ClassSkeleton.Run.Progress
import ClassSkeleton.Run.Usage

namespace ClassSkeleton.Run

/-!
# Runs

A run carries out one command line: it generates files for inputs or one text for what stands on
standard input, or it prints rules. It succeeds if nothing at all has failed.
-/

inductive Status where
  | success
  | failure
  | misuse
  deriving DecidableEq, Repr

namespace Status

def code : Status → Nat
  | success => 0
  | failure => 1
  | misuse => 2

def ofBool (b : Bool) : Status := if b then success else failure

end Status

/-- Why a run ends before anything is compiled. -/
inductive Refusal where
  | unreadRules (file : Path) (why : DiskError)
  | config (why : Rules.ConfigError)
  | unreadInput (why : DiskError)
  | absent (input : Path)
  | uncreated (folder : Path) (why : DiskError)

namespace Refusal

def message : Refusal → String
  | unreadRules file why => "cannot read rules file " ++ file.text ++ ": " ++ why.message
  | config why => why.message
  | unreadInput why => "failed to read stdin: " ++ why.message
  | absent input => input.text ++ " does not exist"
  | uncreated folder why => "cannot create " ++ folder.text ++ ": " ++ why.message

end Refusal

/-- A number with `places` digits behind the point, where `n` counts units of `10 ^ -scale`. -/
def rounded (places scale n : Nat) : String :=
  let unit := Nat.pow 10 (scale - places)
  let n := (2 * n + unit) / (2 * unit)
  let part := toString (n % Nat.pow 10 places)
  toString (n / Nat.pow 10 places) ++ "." ++ "".pushn '0' (places - part.length) ++ part

/-- A time in the largest of three units that it fills. -/
def durationText (micros : Nat) : String :=
  if micros < 1000 then toString micros ++ "μs"
  else if micros < 1000000 then rounded 1 3 micros ++ "ms"
  else rounded 2 6 micros ++ "s"

/-- The last line of a run. -/
def summary (count : Nat) (micros : Option Nat) : String :=
  "\n✨ Generated " ++ toString count ++ (if count = 1 then " file" else " files") ++
    micros.elim "" (fun n => " in " ++ durationText n) ++ "\n"

/-- The name under which standard input is reported. -/
def inputName : String := "<stdin>"

namespace Host

variable {m : Type → Type} [Monad m]

def refuse (h : Host m) (why : Refusal) : m Status := do
  h.putErr ("Error: " ++ why.message ++ "\n")
  return .failure

/-- The rules that a file lays over the standard ones. -/
def loadRules (h : Host m) (verbose : Bool) (file : Option Path) :
    m (Except Refusal Rules.RuleSet) := do
  match file with
  | none => return .ok Rules.standard
  | some file =>
    match ← h.readText file with
    | .error e => return .error (.unreadRules file e)
    | .ok text =>
      match Rules.Config.ofJson text with
      | .error e => return .error (.config e)
      | .ok config =>
        h.inform verbose (config.replaced.map fun (table, count) =>
          "using " ++ toString count ++ " custom " ++ table.text ++ " rules")
        return (config.over Rules.standard).mapError .config

/-- Files stand for themselves, and folders for the XML files below them. -/
def collectInputs (h : Host m) : List Path → m (Except Refusal (List Path))
  | [] => return .ok []
  | input :: rest => do
    let found : Except Refusal (List Path) ← do
      if ← h.isFile input then pure (.ok [input])
      else if ← h.isFolder input then
        pure (.ok ((← h.filesBelow input).filter fun file => file.extension? = some "xml"))
      else pure (.error (.absent input))
    match found with
    | .error why => return .error why
    | .ok files => return (← collectInputs h rest).map (files ++ ·)

/-- Prints what is generated for standard input. -/
def generateInput (h : Host m) (job : Job) (asJson : Bool) : m Status := do
  match ← h.readInput with
  | .error e => h.refuse (.unreadInput e)
  | .ok source =>
    h.warn (compileWarnings job.rules job.options source)
    match compile job.rules job.options source with
    | .error why =>
      h.putErr ((Problem.unreadable why).render source inputName)
      return .failure
    | .ok compiled =>
      if asJson then
        h.putOut (String.ofList compiled.toJson.compact ++ "\n")
      else
        h.putOut compiled.listing
        h.putErr (String.join (compiled.problems.map fun p => p.render source inputName))
      return .ofBool compiled.problems.isEmpty

/-- Writes what is generated for files. -/
def generateFiles (h : Host m) (job : Job) (inputs : List Path) : m Status := do
  match ← h.collectInputs inputs with
  | .error why => h.refuse why
  | .ok [] =>
    h.putErr "No .xml files found\n"
    return .failure
  | .ok files =>
    match ← h.makeFolders job.output with
    | .error e => h.refuse (.uncreated job.output e)
    | .ok () =>
      let progress ← h.processFiles job files
      h.putErr (summary progress.count (← h.elapsed))
      return .ofBool progress.isSuccess

def runGeneration (h : Host m) (g : Generation) : m Status := do
  match ← h.loadRules g.verbose g.rules with
  | .error why => h.refuse why
  | .ok rules =>
    let job : Job := ⟨rules, g.options, g.output, g.verbose⟩
    if g.fromInput then h.generateInput job g.asJson else h.generateFiles job g.inputs

/-- The text of a rule set, as a configuration that gives all tables. -/
def rulesText (rules : Rules.RuleSet) : String :=
  String.ofList ((Rules.Config.ofRules rules).toJson.indented 0) ++ "\n"

def runRules (h : Host m) (file : Option Path) : m Status := do
  match ← h.loadRules false file with
  | .error why => h.refuse why
  | .ok rules =>
    h.putOut (rulesText rules)
    return .success

/-- Carries out a command line of a program that is called by a name. -/
def run (h : Host m) (program : String) (args : List String) : m Status := do
  match Command.ofArgs args with
  | .error why =>
    h.putErr ("error: " ++ why.message ++ "\n\nFor more information, try '--help'.\n")
    return .misuse
  | .ok (.help topic) =>
    h.putOut (topic.text program)
    return .success
  | .ok (.rules file) => h.runRules file
  | .ok (.generate g) => h.runGeneration g

end Host

end ClassSkeleton.Run
