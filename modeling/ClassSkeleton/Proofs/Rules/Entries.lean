import ClassSkeleton.Proofs.Text.Literals
import ClassSkeleton.Rules.Standard

namespace ClassSkeleton

/-!
# Tables by their entries

What a table of entries makes of a text, and what holds of all its rules, can be told from the
texts of the entries alone. The patterns for scalar types are put together from three texts.
-/

theorem Pattern.ofString?_of_read {source : String} {node : Pattern.Node}
    {names : List (String × Nat)} (h : Grammar.read? source.toList = some (node, names)) :
    ofString? source = some ⟨source, node, names, h⟩ := by
  unfold ofString?
  split
  · next other others hother =>
    obtain ⟨rfl, rfl⟩ := Prod.mk.inj (Option.some.inj (h.symm.trans hother))
    rfl
  · next hnone => cases h.symm.trans hnone

theorem Pattern.ofString?_of_read_none {source : String}
    (h : Grammar.read? source.toList = none) : ofString? source = none := by
  unfold ofString?
  split
  · next hsome => cases h.symm.trans hsome
  · rfl

namespace Rules.Standard

open Pattern Text

/-- What the rule of an entry makes of a text. An entry that is no pattern leaves it alone. -/
def replaceWith (pattern template text : List Char) : List Char :=
  match Grammar.read? pattern with
  | some (node, names) =>
    replaceMatches node.matchAt? (Template.expand names (Template.parts template)) text
  | none => text

/-- A table that is made of patterns runs one after the other what their rules make of a text. What
is no pattern makes no rule. -/
theorem apply_made {α : Type} {source : α → String} {replacement : α → Replacement}
    {write : α → List Char → List Char}
    (hrule : ∀ x (p : Pattern), p.source = source x → ∀ text : String,
      (Rule.mk p (replacement x)).apply text = String.ofList (write x text.toList))
    (hnone : ∀ x, Grammar.read? (source x).toList = none → ∀ text, write x text = text)
    (xs : List α) (text : String) :
    Table.apply (xs.filterMap fun x => (ofString? (source x)).map (⟨·, replacement x⟩)) text =
      String.ofList (xs.foldl (fun text x => write x text) text.toList) := by
  induction xs generalizing text with
  | nil => simp
  | cons x xs ih =>
      rw [List.foldl_cons, List.filterMap_cons]
      cases hread : Grammar.read? (source x).toList with
      | none =>
          rw [ofString?_of_read_none hread, hnone x hread]
          exact ih text
      | some found =>
          obtain ⟨node, names⟩ := found
          have hx := hrule x ⟨source x, node, names, hread⟩ rfl text
          rw [ofString?_of_read hread]
          simp only [Option.map_some]
          rw [Table.apply_cons, hx, ih, String.toList_ofList]

theorem apply_tableOf (entries : Entries) (text : String) :
    (tableOf entries).apply text = String.ofList (entries.foldl
      (fun text entry => replaceWith entry.1.toList entry.2.toList text) text.toList) := by
  apply apply_made
  · rintro ⟨_, template⟩ p rfl text
    simp only [replaceWith, p.read, Rule.apply, Pattern.replaceAll, Pattern.find]
  · intro entry hnone text
    rw [replaceWith, hnone]

/-- What the rules of some entries make of a text, one after the other. -/
def replaceAllWith (entries : Entries) (text : List Char) : List Char :=
  entries.foldl (fun text entry => replaceWith entry.1.toList entry.2.toList text) text

theorem replaceAllWith_append (entries others : Entries) (text : List Char) :
    replaceAllWith (entries ++ others) text =
      replaceAllWith others (replaceAllWith entries text) := List.foldl_append

/-- What entries make of a text, one after the other. -/
def rewriteAll (entries : List (List Char × List Char)) (text : List Char) : List Char :=
  entries.foldl (fun text entry => replaceWith entry.1 entry.2 text) text

/-- Entries as characters, for a proof that computes. -/
def asChars (entries : Entries) : List (List Char × List Char) :=
  entries.map fun entry => (chars entry.1, chars entry.2)

theorem replaceAllWith_eq (entries : Entries) (text : List Char) :
    replaceAllWith entries text = rewriteAll (asChars entries) text := by
  simp only [replaceAllWith, rewriteAll, asChars, List.foldl_map, chars_eq_toList]

/-- The rules for types, with the texts of the scalar patterns put together from characters. -/
theorem apply_types (text : String) :
    standard.types.apply text = String.ofList (markedReals.foldl (fun text name =>
        replaceWith ("(^|[^@\\w:])".toList ++ name.toList ++ "\\b".toList)
          ("$\x7b1\x7d/* @".toList ++ name.toList ++ " */ double".toList) text)
      (scalarTypes.foldl (fun text entry =>
          replaceWith ("(^|[^@\\w:])".toList ++ entry.1.toList ++ "\\b".toList)
            ("$\x7b1\x7d".toList ++ entry.2.toList) text)
        (spellings.foldl (fun text entry => replaceWith entry.1.toList entry.2.toList text)
          text.toList))) := by
  simp only [standard, apply_tableOf, List.foldl_append, scalars, markers, List.foldl_map,
    scalarPattern, String.toList_append]

end Rules.Standard

end ClassSkeleton
