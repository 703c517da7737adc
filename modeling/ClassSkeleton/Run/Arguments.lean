import ClassSkeleton.Run.Path
import ClassSkeleton.Skeleton.Emit

namespace ClassSkeleton.Run

/-!
# Command lines

The first argument names a command, and the options of a command may stand between its operands.
Arguments are read from left to right: the first one that asks for help or cannot be accepted
decides. Behind two dashes every argument is an operand.
-/

/-- What a value of an option has to be. A path has at least one character. -/
inductive OptionKind where
  | flag
  | text
  | path
  deriving DecidableEq, Repr

structure OptionSpec where
  name : String
  short : Option Char
  kind : OptionKind
  deriving DecidableEq, Repr

/-- A command with its options, and whether operands may follow. -/
structure Grammar where
  options : List OptionSpec
  operands : Bool

inductive Topic where
  | program
  | generate
  | rules
  | help
  deriving DecidableEq, Repr

/-- The topic of a command. -/
def Topic.ofWord? : String → Option Topic
  | "generate" => some generate
  | "rules" => some rules
  | "help" => some help
  | _ => none

/-- Why a command line is not accepted. -/
inductive Misuse where
  | noCommand
  | unknownCommand (word : String)
  | unknownOption (word : String)
  | unexpected (word : String)
  | valueMissing (option : String)
  | valueUnwanted (option : String)
  | valueEmpty (what : String)
  | repeated (option : String)
  | required (what : String)
  deriving DecidableEq, Repr

namespace Misuse

def message : Misuse → String
  | noCommand => "a command is required"
  | unknownCommand word => "unknown command '" ++ word ++ "'"
  | unknownOption word => "unknown option '" ++ word ++ "'"
  | unexpected word => "unexpected argument '" ++ word ++ "'"
  | valueMissing option => "option '--" ++ option ++ "' requires a value"
  | valueUnwanted option => "option '--" ++ option ++ "' takes no value"
  | valueEmpty what => what ++ " may not be empty"
  | repeated option => "option '--" ++ option ++ "' is given twice"
  | required what => what ++ " is required"

end Misuse

/-- Why the reading of a command line ends before its end. -/
inductive Stop where
  | help
  | misuse (why : Misuse)
  deriving DecidableEq, Repr

/-- The options with their values and the operands that have been read. -/
structure Given where
  values : List (String × String)
  operands : List String
  deriving DecidableEq, Repr

namespace Given

def empty : Given := ⟨[], []⟩

def value? (g : Given) (name : String) : Option String := g.values.lookup name

def has (g : Given) (name : String) : Bool := (g.value? name).isSome

def addValue (g : Given) (option : OptionSpec) (value : String) : Except Stop Given :=
  if g.has option.name then .error (.misuse (.repeated option.name))
  else if option.kind = .path ∧ value.isEmpty then
    .error (.misuse (.valueEmpty ("the value of option '--" ++ option.name ++ "'")))
  else .ok { g with values := g.values ++ [(option.name, value)] }

def addOperand (g : Given) (allowed : Bool) (word : String) : Except Stop Given :=
  if !allowed then .error (.misuse (.unexpected word))
  else if word.isEmpty then .error (.misuse (.valueEmpty "an operand"))
  else .ok { g with operands := g.operands ++ [word] }

end Given

/-- The name of a long option and the value that is attached to it. -/
def splitAttached : List Char → List Char × Option (List Char)
  | [] => ([], none)
  | c :: rest =>
    if c = '=' then ([], some rest)
    else
      let (name, value) := splitAttached rest
      (c :: name, value)

namespace Grammar

/-- Reads a long option. One that still needs a value is handed back. -/
def readLong (grammar : Grammar) (g : Given) (body : List Char) :
    Except Stop (Given × Option OptionSpec) :=
  let (nameChars, value?) := splitAttached body
  let name := String.ofList nameChars
  if name = "help" then
    if value?.isSome then .error (.misuse (.valueUnwanted name)) else .error .help
  else
    match grammar.options.find? fun o => o.name = name with
    | none => .error (.misuse (.unknownOption ("--" ++ String.ofList body)))
    | some option =>
      match option.kind, value? with
      | .flag, some _ => .error (.misuse (.valueUnwanted name))
      | .flag, none => return (← g.addValue option "", none)
      | _, some value => return (← g.addValue option (String.ofList value), none)
      | _, none => .ok (g, some option)

/-- Reads short options in one word. What follows one that takes a value is its value. -/
def readShort (grammar : Grammar) (g : Given) :
    List Char → Except Stop (Given × Option OptionSpec)
  | [] => .ok (g, none)
  | c :: rest =>
    if c = 'h' then .error .help
    else
      match grammar.options.find? fun o => o.short = some c with
      | none => .error (.misuse (.unknownOption ("-" ++ String.ofList [c])))
      | some option =>
        if option.kind = .flag then do readShort grammar (← g.addValue option "") rest
        else
          match rest with
          | [] => .ok (g, some option)
          | '=' :: value => return (← g.addValue option (String.ofList value), none)
          | value => return (← g.addValue option (String.ofList value), none)

def readOperands (grammar : Grammar) (g : Given) : List String → Except Stop Given
  | [] => .ok g
  | word :: rest => do readOperands grammar (← g.addOperand grammar.operands word) rest

/-- Whether a word is an option, or ends the options, where one may stand. -/
def isOption (word : String) : Bool :=
  match word.toList with
  | '-' :: _ :: _ => true
  | _ => false

/-- Reads arguments when an option may wait for its value. -/
def readFrom (grammar : Grammar) (waiting : Option OptionSpec) (g : Given) :
    List String → Except Stop Given
  | [] =>
    match waiting with
    | none => .ok g
    | some option => .error (.misuse (.valueMissing option.name))
  | word :: rest =>
    match waiting with
    | some option =>
      if isOption word then .error (.misuse (.valueMissing option.name))
      else do readFrom grammar none (← g.addValue option word) rest
    | none =>
      match word.toList with
      | ['-', '-'] => grammar.readOperands g rest
      | '-' :: '-' :: body => do
        let (g, waiting) ← grammar.readLong g body
        readFrom grammar waiting g rest
      | '-' :: c :: others => do
        let (g, waiting) ← grammar.readShort g (c :: others)
        readFrom grammar waiting g rest
      | _ => do readFrom grammar none (← g.addOperand grammar.operands word) rest

def read (grammar : Grammar) (args : List String) : Except Stop Given :=
  grammar.readFrom none .empty args

end Grammar

/-- The arguments of the command that generates files. -/
structure Generation where
  inputs : List Path
  options : Skeleton.Options
  output : Path
  verbose : Bool
  rules : Option Path
  fromInput : Bool
  asJson : Bool
  deriving DecidableEq, Repr

inductive Command where
  | generate (g : Generation)
  | rules (file : Option Path)
  | help (topic : Topic)
  deriving DecidableEq, Repr

namespace Generation

def grammar : Grammar :=
  ⟨[⟨"namespace", some 'n', .text⟩, ⟨"output", some 'O', .path⟩, ⟨"verbose", some 'v', .flag⟩,
    ⟨"rules", none, .path⟩, ⟨"methods-first", none, .flag⟩, ⟨"extension", none, .text⟩,
    ⟨"stdin", none, .flag⟩, ⟨"json", none, .flag⟩], true⟩

def ofGiven (g : Given) : Except Misuse Generation :=
  match g.value? "namespace" with
  | none => .error (.required "option '--namespace'")
  | some ns =>
    if g.operands.isEmpty ∧ !g.has "stdin" then .error (.required "an input")
    else .ok {
      inputs := g.operands.map Path.mk
      options := ⟨ns, if g.has "methods-first" then .methodsFirst else .fieldsFirst,
        (g.value? "extension").getD "java"⟩
      output := ⟨(g.value? "output").getD "."⟩
      verbose := g.has "verbose"
      rules := (g.value? "rules").map Path.mk
      fromInput := g.has "stdin"
      asJson := g.has "json" }

end Generation

namespace Command

def rulesGrammar : Grammar := ⟨[⟨"rules", none, .path⟩], false⟩

def helpFor : List String → Except Misuse Command
  | [] => .ok (.help .program)
  | word :: rest =>
    match Topic.ofWord? word, rest with
    | some topic, [] => .ok (.help topic)
    | some _, other :: _ => .error (.unknownCommand other)
    | none, _ => .error (.unknownCommand word)

/-- The command of what has been read, or the help that has been asked for. -/
def ofReading (topic : Topic) (reading : Except Stop Given)
    (build : Given → Except Misuse Command) : Except Misuse Command :=
  match reading with
  | .ok g => build g
  | .error .help => .ok (.help topic)
  | .error (.misuse why) => .error why

/-- Reads a command line. -/
def ofArgs : List String → Except Misuse Command
  | [] => .error .noCommand
  | "generate" :: rest =>
    ofReading .generate (Generation.grammar.read rest) fun g => (Generation.ofGiven g).map .generate
  | "rules" :: rest =>
    ofReading .rules (rulesGrammar.read rest) fun g => .ok (.rules ((g.value? "rules").map Path.mk))
  | "help" :: rest => helpFor rest
  | word :: rest =>
    if Grammar.isOption word then
      ofReading .program ((⟨[], false⟩ : Grammar).read (word :: rest)) fun _ => .error .noCommand
    else .error (.unknownCommand word)

end Command

end ClassSkeleton.Run
