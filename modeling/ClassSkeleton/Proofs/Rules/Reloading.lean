import ClassSkeleton.Proofs.Json.Reading
import ClassSkeleton.Run.Generate

namespace ClassSkeleton.Rules

/-!
# Rules read back

A configuration is read back from its text, whatever tables it gives and whatever its patterns
and templates hold. A pattern is known by its source, so the configuration of a rule set compiles
to that set again.
-/

open Json (Decodes Fills Complete)

namespace Spec

section Fields

variable (d : Draft) (s : String) (b : Bool)

theorem decodes_pattern :
    Decodes (fields[0].read d) (.string s) { d with pattern := some s } :=
  (Json.decodes_readString s).map fun s => ({ d with pattern := some s } : Draft)

theorem decodes_replacement :
    Decodes (fields[1].read d) (.string s) { d with replacement := some s } :=
  (Json.decodes_readString s).map fun s => ({ d with replacement := some s } : Draft)

theorem decodes_unwrap : Decodes (fields[2].read d) (.bool b) { d with unwrap := some b } :=
  (Json.decodes_readBool b).map fun b => ({ d with unwrap := some b } : Draft)

end Fields

/-- A rule is read back from its spelling, which leaves out that nothing is unwrapped. -/
theorem decodes_read (spec : Spec) : Decodes read spec.toJson spec := by
  obtain ⟨pattern, replacement, unwrap⟩ := spec
  let draft : Draft := ⟨some pattern, some replacement, if unwrap then some true else none⟩
  have hfills : Fills fields ⟨none, none, none⟩
      ([("pattern", .string pattern), ("replacement", .string replacement)] ++
        if unwrap then [("unwrap", .bool true)] else []) draft := by
    refine .cons (by rfl) rfl (decodes_pattern _ pattern) ?_
    refine .cons (by rfl) rfl (decodes_replacement _ replacement) ?_
    cases unwrap with
    | false => exact .nil _
    | true => exact .cons (by rfl) rfl (decodes_unwrap _ true) (.nil _)
  have hcomplete : Complete fields draft := by simp [Complete, fields, draft]
  have hread := (Json.decodes_readRecord "struct RuleSpec" hfills hcomplete).map fun draft =>
    (⟨draft.pattern.getD "", draft.replacement.getD "", draft.unwrap.getD false⟩ : Spec)
  cases unwrap <;> exact hread

end Spec

namespace Config

theorem find?_fields (table : TableName) :
    fields.find? (·.name = table.text) = some ⟨table.text, false, fun d => (d.get table).isSome,
      fun d => do return d.set table (some (← Json.readOptional (Json.readList Spec.read)))⟩ := by
  cases table <;> rfl

theorem decodes_table (d : Draft) (table : TableName) (specs : List Spec) :
    Decodes (do return d.set table (some (← Json.readOptional (Json.readList Spec.read))))
      (.array (specs.map Spec.toJson)) (d.set table (some (some specs))) := by
  have hspecs : List.Forall₂ (Decodes Spec.read) (specs.map Spec.toJson) specs := by
    rw [List.forall₂_map_left_iff, List.forall₂_same]
    exact fun spec _ => spec.decodes_read
  exact (Json.decodes_readOptional (Json.decodes_readList hspecs)).map fun specs =>
    d.set table (some specs)

/-- The members of the given tables among some bring a draft that has none of these tables to
one that has just the given ones of them. -/
theorem exists_fills (config : Config) (tables : List TableName) (hnodup : tables.Nodup)
    (d : Draft) (hfree : ∀ table ∈ tables, d.get table = none) : ∃ last : Draft,
      Fills fields d (tables.filterMap fun table =>
        (config.get table).map fun specs => (table.text, .array (specs.map Spec.toJson))) last ∧
      ∀ table, last.get table =
        if table ∈ tables then (config.get table).map some else d.get table := by
  induction tables generalizing d with
  | nil => exact ⟨d, .nil d, by simp⟩
  | cons table tables ih =>
      obtain ⟨hnot, hnodup⟩ := List.nodup_cons.mp hnodup
      obtain ⟨hhere, hfree⟩ := List.forall_mem_cons.mp hfree
      cases hgiven : config.get table with
      | none =>
          obtain ⟨last, hfills, hlast⟩ := ih hnodup d hfree
          refine ⟨last, by simpa [hgiven] using hfills, fun other => ?_⟩
          by_cases heq : other = table
          · subst heq
            simp [hlast, hnot, hhere, hgiven]
          · simp [hlast, heq]
      | some specs =>
          have hset : ∀ other ∈ tables, (d.set table (some (some specs))).get other = none := by
            intro other hother
            have hne : other ≠ table := fun heq => hnot (heq ▸ hother)
            rw [PerTable.get_set, if_neg hne, hfree other hother]
          obtain ⟨last, hfills, hlast⟩ := ih hnodup _ hset
          refine ⟨last, ?_, fun other => ?_⟩
          · simp only [List.filterMap_cons, hgiven, Option.map_some]
            refine .cons (find?_fields table) (by simp [hhere]) ?_ hfills
            exact decodes_table d table specs
          · by_cases heq : other = table
            · subst heq
              simp [hlast, hnot, PerTable.get_set, hgiven]
            · simp [hlast, heq, PerTable.get_set]

theorem decodes_read (config : Config) : Decodes read config.toJson config := by
  obtain ⟨draft, hfills, hdraft⟩ :=
    config.exists_fills TableName.all (by decide) (.replicate none) (by simp)
  have hcomplete : Complete fields draft := by simp [Complete, fields]
  have hconfig : draft.map Option.join = config := by
    refine PerTable.ext_get fun table => ?_
    rw [PerTable.get_map, hdraft, if_pos (TableName.mem_all table)]
    cases config.get table <;> rfl
  have hread := (Json.decodes_readRecord "struct RulesConfig" hfills hcomplete).map fun draft =>
    draft.map Option.join
  rw [hconfig] at hread
  exact hread

theorem compileTable_map_ofRule (name : TableName) (table : Table) :
    compileTable name (table.map Spec.ofRule) = .ok table := by
  induction table with
  | nil => rfl
  | cons rule table ih => simp [compileTable, ih, Bind.bind, Except.bind, pure, Except.pure]

theorem over_ofRules (rules base : RuleSet) : (ofRules rules).over base = .ok rules := by
  have htable (name : TableName) : tableOver (ofRules rules) base name = .ok (rules.get name) := by
    simp only [tableOver, ofRules, PerTable.get_map]
    exact compileTable_map_ofRule name (rules.get name)
  simp only [Config.over, htable, Bind.bind, Except.bind, pure, Except.pure]
  rfl

/-- What is printed for rules is read as a configuration that gives all of them again, whatever
set it is laid over. So it is printed again as the same text. -/
theorem ofJson_rulesText (rules base : RuleSet) : ∃ config,
    ofJson (Run.Host.rulesText rules) = .ok config ∧ config.over base = .ok rules ∧
      (config.over base).map Run.Host.rulesText = .ok (Run.Host.rulesText rules) := by
  have hover : (ofRules rules).over base = .ok rules := over_ofRules rules base
  have hfeed : Json.Blank ['\n'] := Json.blank_lineBreak 0
  have hread := (ofRules rules).decodes_read.readDocument
    (Json.Value.spells_indented 0 (ofRules rules).toJson) hfeed
  rw [String.ofList_append] at hread
  refine ⟨ofRules rules, ?_, hover, ?_⟩
  · exact congrArg (Except.mapError ConfigError.json) hread
  · rw [hover]
    rfl

end Config

end ClassSkeleton.Rules
