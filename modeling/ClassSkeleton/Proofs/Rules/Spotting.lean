import ClassSkeleton.Proofs.Pattern.Phrases
import ClassSkeleton.Proofs.Rules.Entries

namespace ClassSkeleton.Rules

/-!
# What an entry takes

The entries of the tables for types take phrases, some of them behind a guard. Which phrases these
are can be read off the pattern and the template of an entry.
-/

open Pattern

/-- Whether one character at least is taken by the pieces of a phrase. -/
def isFilled (ph : Phrase) : Bool :=
  (ph.front ++ ph.back).any fun
    | .one _ => true
    | _ => false

theorem take?_ne_nil {pieces : List Piece} {prev : Option Char} {text taken rest : List Char}
    (hpieces : (pieces.any fun | .one _ => true | _ => false) = true)
    (h : take? pieces prev text = some (taken, rest)) : taken ≠ [] := by
  fun_induction take? pieces prev text generalizing taken with
  | case1 => cases hpieces
  | case2 => cases h
  | case3 =>
      obtain ⟨found, -, heq⟩ := Option.map_eq_some_iff.mp h
      obtain ⟨rfl, -⟩ := Prod.mk.inj heq
      exact List.cons_ne_nil _ _
  | case4 => cases h
  | case5 s pieces prev text ih =>
      obtain ⟨found, hfound, heq⟩ := Option.map_eq_some_iff.mp h
      obtain ⟨rfl, rfl⟩ := Prod.mk.inj heq
      rw [List.any_cons, Bool.false_or] at hpieces
      exact List.append_ne_nil_of_right_ne_nil _ (ih hpieces hfound)
  | case6 l pieces prev text _ ih =>
      rw [List.any_cons, Bool.false_or] at hpieces
      exact ih hpieces h
  | case7 => cases h

/-- A phrase takes what its pieces take one after the other. -/
theorem Phrase.take?_of_at? {ph : Phrase} {prev : Option Char} {text taken out : List Char}
    (h : ph.at? prev text = some (taken, out)) :
    ∃ rest, take? (ph.front ++ ph.back) prev text = some (taken, rest) ∧ text = taken ++ rest := by
  obtain ⟨first, hfirst, h⟩ := Option.bind_eq_some_iff.mp h
  obtain ⟨second, hsecond, heq⟩ := Option.map_eq_some_iff.mp h
  obtain ⟨rfl, -⟩ := Prod.mk.inj heq
  have htake : take? (ph.front ++ ph.back) prev text =
      some (first.1 ++ second.1, second.2) := by
    rw [take?_append, hfirst, Option.bind_some, hsecond]
    rfl
  exact ⟨second.2, htake, take?_eq_append htake⟩

theorem spotAny_eq_some {phs : List Phrase} {prev : Option Char} {text taken out : List Char}
    (h : spotAny phs prev text = some (taken, out)) :
    ∃ ph ∈ phs, ph.at? prev text = some (taken, out) := List.exists_of_findSome?_eq_some h

theorem lawful_spotAny {phs : List Phrase} (h : phs.all isFilled = true) :
    (spotAny phs).Lawful := by
  intro prev text taken out hfound
  obtain ⟨ph, hph, hat⟩ := spotAny_eq_some hfound
  obtain ⟨rest, htake, rfl⟩ := Phrase.take?_of_at? hat
  exact ⟨take?_ne_nil (List.all_eq_true.mp h ph hph) htake, List.prefix_append taken rest⟩

/-- What starts at the start of a text is taken nowhere else. -/
theorem spot_anchored {pieces : List Piece} {lit : List Char} (p : Char) (text : List Char) :
    spotAny [⟨.look .textStart :: pieces, lit, []⟩] (some p) text = none := by
  simp [spotAny, Phrase.at?, take?, Look.holds]

theorem lawful_behind {guard : CharSet} {at? : Spotter} (h : at?.Lawful) :
    (behind guard at?).Lawful := by
  intro prev text taken out hfound
  exact h (Option.ite_none_right_eq_some.mp hfound).2

namespace Standard

/-- The phrases that an entry without a guard takes. -/
def phrases? (pattern template : List Char) : Option (List Phrase) :=
  match Grammar.read? pattern with
  | some (node, _) =>
    if node.isPlain && node.isPhrased (Template.parts template) then
      some (node.phrases (Template.parts template))
    else none
  | none => none

theorem rewrites_of_phrases? {pattern template : List Char} {phs : List Phrase}
    (h : phrases? pattern template = some phs) (hlawful : (spotAny phs).Lawful)
    (text : List Char) : Rewrites (spotAny phs) none text (replaceWith pattern template text) := by
  rw [phrases?] at h
  rw [replaceWith]
  cases hread : Grammar.read? pattern with
  | none =>
      rw [hread] at h
      cases h
  | some found =>
      obtain ⟨node, names⟩ := found
      rw [hread] at h
      obtain ⟨hboth, hphrases⟩ := Option.ite_none_right_eq_some.mp h
      obtain rfl := Option.some.inj hphrases
      obtain ⟨hplain, hphrased⟩ := (Bool.and_eq_true _ _).mp hboth
      exact rewrites_of_finds hlawful (Node.finds_of_isPhrased hplain hphrased) [] text false

/-- The guard of an entry, and the phrases that it takes behind it. -/
def guarded? (pattern template : List Char) : Option (CharSet × List Phrase) :=
  match Grammar.read? pattern, Template.parts template with
  | some (node, _), .numbered 1 :: parts =>
    node.unguard?.bind fun found =>
      if node.isPlain && (node.branches.all fun p => p.isKeen none) && found.2.isGuarded parts then
        some (found.1, found.2.phrases parts)
      else none
  | _, _ => none

theorem rewrites_of_guarded? {pattern template : List Char} {guard : CharSet} {phs : List Phrase}
    (h : guarded? pattern template = some (guard, phs)) (hlawful : (spotAny phs).Lawful)
    (hbehind : ∀ {prev text taken out}, behind guard (spotAny phs) prev text = some (taken, out) →
      ∀ rest, behind guard (spotAny phs) taken.getLast? rest = none) (text : List Char) :
    Rewrites (behind guard (spotAny phs)) none text (replaceWith pattern template text) := by
  unfold guarded? at h
  rw [replaceWith]
  split at h
  · next node names parts hread hparts =>
      obtain ⟨found, hfound, h⟩ := Option.bind_eq_some_iff.mp h
      obtain ⟨hall, heq⟩ := Option.ite_none_right_eq_some.mp h
      obtain ⟨rfl, rfl⟩ := Prod.mk.inj (Option.some.inj heq)
      obtain ⟨hboth, hguarded⟩ := (Bool.and_eq_true _ _).mp hall
      obtain ⟨hplain, hkeen⟩ := (Bool.and_eq_true _ _).mp hboth
      rw [hread, hparts]
      exact rewrites_of_guarded (lawful_behind hlawful)
        (Node.finds_of_isGuarded hplain hkeen hfound hguarded) hbehind text
  · cases h

end Standard

end ClassSkeleton.Rules
