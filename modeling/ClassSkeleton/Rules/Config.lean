import ClassSkeleton.Json.Record
import ClassSkeleton.Json.Value
import ClassSkeleton.Rules.RuleSet

namespace ClassSkeleton.Rules

/-!
# Rule configurations

A configuration gives some of the five tables as JSON. A table that it gives replaces the whole
table of the set it is laid over; the others stay. Every set can be written as a configuration.
-/

/-- A rule as a configuration spells it. An unwrapping rule ignores its replacement. -/
structure Spec where
  pattern : String
  replacement : String
  unwrap : Bool
  deriving DecidableEq, Repr

namespace Spec

def compile? (spec : Spec) : Option Rule :=
  (Pattern.ofString? spec.pattern).map fun pattern =>
    ⟨pattern, if spec.unwrap then .unwrap else .template spec.replacement⟩

def ofRule (rule : Rule) : Spec :=
  match rule.replacement with
  | .template text => ⟨rule.pattern.source, text, false⟩
  | .unwrap => ⟨rule.pattern.source, "", true⟩

@[simp] theorem compile?_ofRule (rule : Rule) : (ofRule rule).compile? = some rule := by
  obtain ⟨pattern, replacement⟩ := rule
  cases replacement <;> simp [ofRule, compile?]

def toJson (spec : Spec) : Json.Value :=
  .object <| [("pattern", .string spec.pattern), ("replacement", .string spec.replacement)] ++
    if spec.unwrap then [("unwrap", .bool true)] else []

/-- A spelling with the fields that have been read so far. -/
structure Draft where
  pattern : Option String
  replacement : Option String
  unwrap : Option Bool

def fields : List (Json.Field Draft) := [
  ⟨"pattern", true, fun d => d.pattern.isSome,
    fun d => do return { d with pattern := some (← Json.readString) }⟩,
  ⟨"replacement", false, fun d => d.replacement.isSome,
    fun d => do return { d with replacement := some (← Json.readString) }⟩,
  ⟨"unwrap", false, fun d => d.unwrap.isSome,
    fun d => do return { d with unwrap := some (← Json.readBool) }⟩]

def read : Json.Reading Spec := do
  let draft ← Json.readRecord "struct RuleSpec" fields ⟨none, none, none⟩
  return ⟨draft.pattern.getD "", draft.replacement.getD "", draft.unwrap.getD false⟩

end Spec

abbrev Config := PerTable (Option (List Spec))

/-- Why a configuration gives no rules. -/
inductive ConfigError where
  | json (fault : Json.Fault)
  | pattern (table : TableName) (pattern : String)

namespace ConfigError

def message : ConfigError → String
  | json fault => "invalid rules document: " ++ fault.message
  | pattern table source =>
    "invalid pattern " ++ Text.quoted source ++ " in " ++ table.text ++ " rules"

end ConfigError

namespace Config

/-- A configuration with the tables that have been read so far. A table that is `null` has been
read but is not given. -/
abbrev Draft := PerTable (Option (Option (List Spec)))

def fields : List (Json.Field Draft) :=
  TableName.all.map fun table =>
    ⟨table.text, false, fun d => (d.get table).isSome, fun d => do
      return d.set table (some (← Json.readOptional (Json.readList Spec.read)))⟩

def read : Json.Reading Config := do
  let draft ← Json.readRecord "struct RulesConfig" fields (.replicate none)
  return draft.map Option.join

def ofJson (text : String) : Except ConfigError Config :=
  (Json.readDocument read text).mapError .json

def ofRules (rules : RuleSet) : Config := rules.map fun table => some (table.map Spec.ofRule)

/-- The tables that are given, in their fixed order. -/
def toJson (config : Config) : Json.Value :=
  .object <| TableName.all.filterMap fun table =>
    (config.get table).map fun specs => (table.text, .array (specs.map Spec.toJson))

/-- Compiles the rules of a table; the first pattern that does not compile is the fault. -/
def compileTable (table : TableName) : List Spec → Except ConfigError Table
  | [] => .ok []
  | spec :: rest =>
    match spec.compile? with
    | none => .error (.pattern table spec.pattern)
    | some rule => return rule :: (← compileTable table rest)

/-- The given tables among some with the numbers of their rules, up to the first table that does
not compile. -/
def replacedAmong (config : Config) : List TableName → List (TableName × Nat)
  | [] => []
  | table :: rest =>
    match config.get table with
    | none => replacedAmong config rest
    | some specs =>
      match compileTable table specs with
      | .error _ => []
      | .ok rules => (table, rules.length) :: replacedAmong config rest

def replaced (config : Config) : List (TableName × Nat) := config.replacedAmong TableName.all

def tableOver (config : Config) (base : RuleSet) (table : TableName) :
    Except ConfigError Table :=
  match config.get table with
  | none => .ok (base.get table)
  | some specs => compileTable table specs

end Config

/-- Lays a configuration over a rule set. -/
def Config.over (config : Config) (base : RuleSet) : Except ConfigError RuleSet := do
  return ⟨← tableOver config base .methodNames, ← tableOver config base .typeReferences,
    ← tableOver config base .types, ← tableOver config base .typeRemovals,
    ← tableOver config base .docs⟩

end ClassSkeleton.Rules
