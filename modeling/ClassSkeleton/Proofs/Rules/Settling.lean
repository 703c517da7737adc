import ClassSkeleton.Proofs.Pattern.Heaviest
import ClassSkeleton.Proofs.Rules.Entries
import ClassSkeleton.Skeleton.Rewriting

namespace ClassSkeleton

/-!
# Rules that settle

The built-in rules for types put heavier text in place of lighter text. So no rule undoes what
another did, and a text that comes through all of them unchanged holds no match of any.
-/

namespace Pattern

namespace Part

def literal? : Part → Option Char
  | char c => some c
  | _ => none

def reference? : Part → Option Nat
  | numbered index => some index
  | _ => none

def isNamed : Part → Bool
  | named _ => true
  | _ => false

end Part

/-- Whether a template brings every group of a node back once, and more mass than the node takes
outside them. -/
def outweighs (x : Node) (parts : List Part) : Bool :=
  parts.all (fun part => !part.isNamed) &&
    decide (parts.filterMap Part.reference? = x.indices ∧ x.indices.Nodup) &&
    x.heaviest?.any (· < mass charMass (parts.filterMap Part.literal?))

theorem mass_expand (w : Char → Int) (names : List (String × Nat)) (m : Match)
    {parts : List Part} (h : ∀ part ∈ parts, part.isNamed = false) :
    mass w (Template.expand names parts m) = mass w (parts.filterMap Part.literal?) +
      mass w ((parts.filterMap Part.reference?).flatMap fun index =>
        (m.group? index).getD []) := by
  induction parts with
  | nil => rfl
  | cons part parts ih =>
      obtain ⟨hpart, hparts⟩ := List.forall_mem_cons.mp h
      have hrest := ih hparts
      rw [Template.expand] at hrest ⊢
      rw [List.flatMap_cons, mass_append, hrest]
      cases part with
      | char c => simp [List.filterMap_cons, Template.expandPart, Part.literal?, Part.reference?,
          Int.add_assoc]
      | numbered index => simp [List.filterMap_cons, Template.expandPart, Part.literal?,
          Part.reference?, Int.add_left_comm]
      | named name => cases hpart

theorem gains_of_outweighs {x : Node} {parts : List Part} (h : outweighs x parts = true)
    (names : List (String × Nat)) :
    Gains charMass x.matchAt? (Template.expand names parts) := by
  intro before after m hm
  obtain ⟨text, rest, recorded, rfl, rfl, htakes⟩ := Node.exists_takes_of_matchAt? hm
  simp only [outweighs, Bool.and_eq_true, List.all_eq_true, Bool.not_eq_true', decide_eq_true_eq,
    Option.any_eq_true] at h
  obtain ⟨⟨hnamed, hrefs, hnodup⟩, bound, hbound, hlt⟩ := h
  obtain ⟨hmass, hindices⟩ := htakes.mass_le hbound
  -- Every group is written once, so what the groups have taken is on both sides.
  have hgroups : mass charMass ((parts.filterMap Part.reference?).flatMap fun index =>
      ((recorded ++ [(0, text)]).lookup index).getD []) = recordedMass recorded := by
    rw [hrefs, ← mass_flatMap_reverse, ← hindices, List.flatMap_map, recordedMass]
    refine congrArg (mass charMass) (List.flatMap_congr fun entry hentry => ?_)
    have hrecorded : (recorded.map Prod.fst).Nodup := by
      rwa [hindices, List.nodup_reverse]
    rw [lookup_append_of_mem hrecorded hentry, Option.getD_some]
  rw [mass_expand charMass names _ hnamed]
  simp only [Match.group?, hgroups, List.take_left]
  omega

end Pattern

namespace Rules

open Pattern

theorem mass_le_dropWhile_isBlank (text : List Char) :
    mass charMass text ≤ mass charMass (text.dropWhile Unicode.isBlank) := by
  induction text with
  | nil => exact Int.le_refl _
  | cons c text ih =>
      cases hc : Unicode.isBlank c with
      | true =>
          rw [List.dropWhile_cons_of_pos hc, mass_cons, charMass_of_isBlank hc]
          omega
      | false => simp [hc]

theorem mass_le_trim (text : List Char) :
    mass charMass text ≤ mass charMass (Text.trim text) := by
  have hstart := mass_le_dropWhile_isBlank text
  have hend := mass_le_dropWhile_isBlank (Text.trimStart text).reverse
  rw [mass_reverse] at hend
  rw [Text.trim, Text.trimEnd, mass_reverse]
  exact Int.le_trans hstart hend

section Unwrapping

variable {find : Finder}

theorem unwrapFrom_of_not_hits {before after : List Char} (h : ¬ HitsFrom find before after) :
    (unwrapFrom find before after).text = before.reverse ++ after := by
  induction after generalizing before with
  | nil => simp [unwrapFrom]
  | cons c rest ih =>
      rw [HitsFrom.cons_iff, not_or] at h
      have hnone : find before (c :: rest) = none := by simpa using h.1
      rw [unwrapFrom]
      simp [hnone, ih h.2]

/-- Whether every match has negative mass. -/
def Light (find : Finder) : Prop :=
  ∀ before after m, find before after = some m → mass charMass (after.take m.length) < 0

namespace Light

theorem mass_lt_drop (h : Light find) {before rest : List Char} {c : Char} {m : Match} {n : Nat}
    (hm : find before (c :: rest) = some m) (hn : m.length = n + 1) :
    mass charMass (c :: rest) < mass charMass (rest.drop n) := by
  have hlight := h before (c :: rest) m hm
  have hparts := mass_append charMass ((c :: rest).take (n + 1)) ((c :: rest).drop (n + 1))
  rw [List.take_append_drop, List.drop_succ_cons] at hparts
  rw [hn] at hlight
  omega

theorem length_ne_zero (h : Light find) {before after : List Char} {m : Match}
    (hm : find before after = some m) : m.length ≠ 0 := by
  intro hzero
  have hlight := h before after m hm
  rw [hzero] at hlight
  exact Int.lt_irrefl _ hlight

theorem mass_le_of_cutAtClose? {text inside tail : List Char}
    (h : Text.cutAtClose? 0 text = some (inside, tail)) :
    mass charMass text ≤ mass charMass (Text.trim inside ++ tail) := by
  have hclose : charMass '>' = 0 := by decide
  have htrim := mass_le_trim inside
  rw [Text.cutAtClose?_eq_append h, mass_append, mass_append, mass_cons, hclose]
  omega

/-- Nothing but openers, closing brackets and blanks is taken away. -/
theorem mass_le_unwrapFrom (h : Light find) (before after : List Char) :
    mass charMass before + mass charMass after ≤
      mass charMass (unwrapFrom find before after).text := by
  fun_induction unwrapFrom find before after with
  | case1 before => simp
  | case2 before c rest hnone ih | case3 before c rest m hm hlength ih =>
      rw [mass_cons] at ih ⊢
      omega
  | case4 before c rest m hm n hlength inside tail hclosed ih =>
      have hdrop := h.mass_lt_drop hm hlength
      have hclose := mass_le_of_cutAtClose? hclosed
      omega
  | case5 before c rest m hm n hlength hopen result ih =>
      have hdrop := h.mass_lt_drop hm hlength
      exact Int.le_trans (Int.add_le_add_left (Int.le_of_lt hdrop) _) ih

theorem mass_lt_unwrapFrom (h : Light find) {before after : List Char}
    (hhits : HitsFrom find before after) :
    mass charMass before + mass charMass after <
      mass charMass (unwrapFrom find before after).text := by
  fun_induction unwrapFrom find before after with
  | case1 before =>
      obtain ⟨m, hm⟩ := Option.isSome_iff_exists.mp (HitsFrom.nil_iff.mp hhits)
      exact absurd (h before [] m hm) (by simp)
  | case2 before c rest hnone ih =>
      rw [HitsFrom.cons_iff, hnone] at hhits
      have hgain := ih (hhits.resolve_left (by simp))
      rw [mass_cons] at hgain ⊢
      omega
  | case3 before c rest m hm hlength => exact absurd hlength (h.length_ne_zero hm)
  | case4 before c rest m hm n hlength inside tail hclosed =>
      have hdrop := h.mass_lt_drop hm hlength
      have hclose := mass_le_of_cutAtClose? hclosed
      have hrest := h.mass_le_unwrapFrom before (Text.trim inside ++ tail)
      omega
  | case5 before c rest m hm n hlength hopen result =>
      have hdrop := h.mass_lt_drop hm hlength
      have hrest := h.mass_le_unwrapFrom before (rest.drop n)
      exact Int.lt_of_lt_of_le (by omega) hrest

end Light

end Unwrapping

namespace Rule

/-- Whether a rule has a plain pattern and puts heavier text in place of lighter text. -/
def gains (rule : Rule) : Bool :=
  rule.pattern.node.isPlain &&
    match rule.replacement with
    | .template template => outweighs rule.pattern.node (Template.parts template.toList)
    | .unwrap =>
      rule.pattern.node.indices.isEmpty && rule.pattern.node.heaviest?.any (· < 0)

/-- Whether a part of a text is one that the pattern of a rule takes where it stands. -/
def Applies (rule : Rule) (text : String) : Prop :=
  ∃ before taken after recorded, text.toList = before ++ (taken ++ after) ∧
    rule.pattern.node.Takes before.reverse taken after recorded

theorem hits_iff_applies {rule : Rule} (h : rule.pattern.node.isPlain = true) (text : String) :
    HitsFrom rule.pattern.find [] text.toList ↔ rule.Applies text := by
  constructor
  · rintro ⟨before, rest, htext, hfind⟩
    rw [List.append_nil] at hfind
    obtain ⟨taken, after, recorded, rfl, htakes⟩ := (Node.matchAt?_isSome_iff h _ _).mp hfind
    exact ⟨before, taken, after, recorded, htext, htakes⟩
  · rintro ⟨before, taken, after, recorded, htext, htakes⟩
    refine ⟨before, taken ++ after, htext, ?_⟩
    rw [List.append_nil]
    exact (Node.matchAt?_isSome_iff h _ _).mpr ⟨taken, after, recorded, rfl, htakes⟩

theorem light_of_gains {x : Node} (hindices : x.indices = []) {bound : Int}
    (hbound : x.heaviest? = some bound) (hlt : bound < 0) : Light x.matchAt? := by
  intro before after m hm
  obtain ⟨text, rest, recorded, rfl, rfl, htakes⟩ := Node.exists_takes_of_matchAt? hm
  obtain rfl := htakes.eq_nil_of_indices hindices
  obtain ⟨hmass, -⟩ := htakes.mass_le hbound
  rw [List.take_left]
  rw [recordedMass, List.flatMap_nil, mass_nil] at hmass
  omega

/-- A rule that gains makes every text heavier that it applies to, and leaves the others alone. -/
theorem apply_of_gains {rule : Rule} (h : rule.gains = true) (text : String) :
    (rule.Applies text → mass charMass text.toList < mass charMass (rule.apply text).toList) ∧
      (¬ rule.Applies text → rule.apply text = text) := by
  obtain ⟨hplain, hreplacement⟩ := (Bool.and_eq_true _ _).mp h
  rw [← hits_iff_applies hplain]
  obtain ⟨pattern, template | _⟩ := rule
  · have hgains : Gains charMass pattern.find
        (Template.expand pattern.names (Template.parts template.toList)) :=
      gains_of_outweighs hreplacement pattern.names
    have happly : apply ⟨pattern, .template template⟩ text = String.ofList (replaceMatches
        pattern.find (Template.expand pattern.names (Template.parts template.toList))
          text.toList) := rfl
    refine ⟨fun hhits => ?_, fun hno => ?_⟩
    · rw [happly, String.toList_ofList]
      exact hgains.mass_lt_replaceFrom hhits
    · rw [happly, replaceMatches, replaceFrom_of_not_hits _ hno, String.ofList_toList]
  · simp only [Bool.and_eq_true, List.isEmpty_iff, Option.any_eq_true,
      decide_eq_true_eq] at hreplacement
    obtain ⟨hindices, bound, hbound, hlt⟩ := hreplacement
    have hlight : Light pattern.find := light_of_gains hindices hbound hlt
    refine ⟨fun hhits => ?_, fun hno => ?_⟩
    · rw [apply, unwrapAll, String.toList_ofList]
      simpa using hlight.mass_lt_unwrapFrom hhits
    · rw [apply, unwrapAll, unwrapFrom_of_not_hits hno, List.reverse_nil, List.nil_append,
        String.ofList_toList]

end Rule

namespace Table

theorem mass_le_apply {table : Table} (h : ∀ rule ∈ table, rule.gains = true) (text : String) :
    mass charMass text.toList ≤ mass charMass (table.apply text).toList := by
  induction table generalizing text with
  | nil => exact Int.le_refl _
  | cons rule table ih =>
      obtain ⟨hrule, htable⟩ := List.forall_mem_cons.mp h
      obtain ⟨hgain, hsame⟩ := Rule.apply_of_gains hrule text
      have hrest := ih htable (rule.apply text)
      rw [apply_cons]
      by_cases happlies : rule.Applies text
      · exact Int.le_trans (Int.le_of_lt (hgain happlies)) hrest
      · rwa [hsame happlies] at hrest ⊢

/-- Rules that gain cannot make up for each other: a text comes through a table of them unchanged
only if none of them applies to it. -/
theorem apply_eq_self_iff {table : Table} (h : ∀ rule ∈ table, rule.gains = true)
    (text : String) : table.apply text = text ↔ ∀ rule ∈ table, ¬ rule.Applies text := by
  induction table with
  | nil => simp
  | cons rule table ih =>
      obtain ⟨hrule, htable⟩ := List.forall_mem_cons.mp h
      obtain ⟨hgain, hsame⟩ := Rule.apply_of_gains hrule text
      rw [apply_cons, List.forall_mem_cons, ← ih htable]
      constructor
      · intro hall
        -- What the first rule adds is never taken away again.
        have hno : ¬ rule.Applies text := by
          intro happlies
          have hrest := mass_le_apply htable (rule.apply text)
          rw [hall] at hrest
          exact Int.not_le.mpr (hgain happlies) hrest
        exact ⟨hno, by rwa [hsame hno] at hall⟩
      · rintro ⟨hno, hall⟩
        rw [hsame hno, hall]

end Table

/-- The rules that a type of one token goes through, in their order. -/
def typeRules (rules : RuleSet) : Table :=
  rules.typeReferences ++ rules.types ++ rules.typeRemovals

namespace Standard

/-- Whether an entry makes a rule that gains, if it is a pattern at all. -/
def entryGains (pattern template : List Char) : Bool :=
  (Grammar.read? pattern).all fun found =>
    found.1.isPlain && outweighs found.1 (Template.parts template)

theorem gains_of_mem_tableOf {entries : Entries}
    (h : (entries.all fun entry => entryGains entry.1.toList entry.2.toList) = true) :
    ∀ rule ∈ tableOf entries, rule.gains = true := by
  intro rule hrule
  obtain ⟨⟨source, template⟩, hentry, hmade⟩ := List.mem_filterMap.mp hrule
  obtain ⟨⟨source', node, names, hread⟩, hpattern, rfl⟩ := Option.map_eq_some_iff.mp hmade
  obtain rfl : source' = source := source_of_ofString? hpattern
  have hgains := List.all_eq_true.mp h _ hentry
  rw [entryGains, hread, Option.all_some] at hgains
  exact hgains

theorem gains_of_mem_typeRules : ∀ rule ∈ typeRules standard, rule.gains = true := by
  have hspellings :
      (spellings.all fun entry => entryGains entry.1.toList entry.2.toList) = true := by
    simp only [← Text.chars_eq_toList]
    decide +kernel
  have hscalars : (scalars.all fun entry => entryGains entry.1.toList entry.2.toList) = true := by
    simp only [← Text.chars_eq_toList]
    decide +kernel
  have hmarkers : (markers.all fun entry => entryGains entry.1.toList entry.2.toList) = true := by
    simp only [← Text.chars_eq_toList]
    decide +kernel
  have hreferences : standard.typeReferences.all Rule.gains = true := by decide +kernel
  have hremovals : standard.typeRemovals.all Rule.gains = true := by decide +kernel
  have htypes : ∀ rule ∈ tableOf (spellings ++ scalars ++ markers), rule.gains = true := by
    apply gains_of_mem_tableOf
    rw [List.all_append, List.all_append, hspellings, hscalars, hmarkers]
    rfl
  have heq : standard.types = tableOf (spellings ++ scalars ++ markers) := by rw [standard]
  rw [← heq] at htypes
  rw [typeRules, List.forall_mem_append, List.forall_mem_append]
  exact ⟨⟨List.all_eq_true.mp hreferences, htypes⟩, List.all_eq_true.mp hremovals⟩

end Standard

end Rules

namespace Skeleton.Rewriting

open Rules

theorem typeName_text (w : Rewriting) (text : String) :
    w.typeName [.text text] = (typeRules w.rules).apply text := by
  have hjoined : w.joinedTokens [.text text] = w.token (.text text) := by
    by_cases hempty : w.token (.text text) = ""
    · simp [joinedTokens, hempty]
    · simp [joinedTokens, hempty]
  rw [typeName, hjoined, token, typeRules, Table.apply_append, Table.apply_append]
  rfl

/-- Writing a type once more changes nothing exactly if none of the rules for types applies to a
part of what has been written. -/
theorem typeName_typeName_iff (ns : String) (type : Decl.TypeRef) :
    let w : Rewriting := ⟨standard, ns⟩
    w.typeName [.text (w.typeName type)] = w.typeName type ↔
      ∀ rule ∈ typeRules standard, ¬ rule.Applies (w.typeName type) := by
  intro w
  rw [typeName_text]
  exact Table.apply_eq_self_iff Standard.gains_of_mem_typeRules _

/-- A name that loses its qualifier is taken for a plain one the next time. -/
theorem typeName_typeName_qualified :
    let w : Rewriting := ⟨standard, ""⟩
    w.typeName [.text "QuantLib::Real"] = "QuantLib.Real" ∧
      w.typeName [.text (w.typeName [.text "QuantLib::Real"])] = "QuantLib.double" := by
  have hboth : (⟨standard, ""⟩ : Rewriting).typeName [.text "QuantLib::Real"] = "QuantLib.Real" ∧
      (⟨standard, ""⟩ : Rewriting).typeName [.text "QuantLib.Real"] = "QuantLib.double" := by
    simp only [typeName_text, typeRules, Table.apply_append, Standard.apply_types,
      ← Text.chars_eq_toList]
    decide +kernel
  exact ⟨hboth.1, by rw [hboth.1, hboth.2]⟩

end Skeleton.Rewriting

end ClassSkeleton
