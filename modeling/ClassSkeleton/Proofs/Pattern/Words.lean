import ClassSkeleton.Proofs.Pattern.Taking

namespace ClassSkeleton.Pattern

/-!
# Nodes that spell words

A node that is put together from single characters and choices takes a few words and nothing
else. An opener takes one of some names at the edge of a word, blanks and a `<`.
-/

namespace Node

def eachWith (words others : List (List Char)) : List (List Char) :=
  words.flatMap fun word => others.map (word ++ ·)

theorem mem_eachWith {words others : List (List Char)} {text : List Char} :
    text ∈ eachWith words others ↔ ∃ first ∈ words, ∃ second ∈ others, first ++ second = text := by
  simp [eachWith]

def words? : Node → Option (List (List Char))
  | empty => some [[]]
  | set (.one c) => some [[c]]
  | cat x y => do
    let words ← x.words?
    let others ← y.words?
    return eachWith words others
  | alt _ x y => do
    let words ← x.words?
    let others ← y.words?
    return words ++ others
  | _ => none

variable {x : Node} {words : List (List Char)} {before text after : List Char}
  {recorded : List (Nat × List Char)}

theorem takes_iff_of_words? (h : x.words? = some words) :
    x.Takes before text after recorded ↔ text ∈ words ∧ recorded = [] := by
  induction x generalizing words before text after recorded with
  | empty =>
      obtain rfl := Option.some.inj h
      constructor
      · intro htakes
        cases htakes with
        | empty => exact ⟨List.mem_singleton_self _, rfl⟩
      · rintro ⟨htext, rfl⟩
        obtain rfl := List.mem_singleton.mp htext
        exact .empty
  | set chars =>
      cases chars with
      | one d =>
          obtain rfl := Option.some.inj h
          constructor
          · intro htakes
            cases htakes with
            | set mem => simpa [CharSet.contains] using mem
          · rintro ⟨htext, rfl⟩
            obtain rfl := List.mem_singleton.mp htext
            exact .set (by simp [CharSet.contains])
      | _ => cases h
  | cat x y ihx ihy =>
      obtain ⟨xs, hxs, hrest⟩ := Option.bind_eq_some_iff.mp h
      obtain ⟨ys, hys, hwords⟩ := Option.bind_eq_some_iff.mp hrest
      obtain rfl := Option.some.inj hwords
      rw [mem_eachWith]
      constructor
      · intro htakes
        cases htakes with
        | cat head tail =>
            obtain ⟨hfirst, rfl⟩ := (ihx hxs).mp head
            obtain ⟨hsecond, rfl⟩ := (ihy hys).mp tail
            exact ⟨⟨_, hfirst, _, hsecond, rfl⟩, rfl⟩
      · rintro ⟨⟨first, hfirst, second, hsecond, rfl⟩, rfl⟩
        exact .cat ((ihx hxs).mpr ⟨hfirst, rfl⟩) ((ihy hys).mpr ⟨hsecond, rfl⟩)
  | alt gate x y ihx ihy =>
      obtain ⟨xs, hxs, hrest⟩ := Option.bind_eq_some_iff.mp h
      obtain ⟨ys, hys, hwords⟩ := Option.bind_eq_some_iff.mp hrest
      obtain rfl := Option.some.inj hwords
      rw [List.mem_append, or_and_right, ← ihx hxs, ← ihy hys]
      constructor
      · intro htakes
        cases htakes with
        | preferred taken => exact Or.inl taken
        | other taken => exact Or.inr taken
      · rintro (taken | taken)
        · exact .preferred taken
        · exact .other taken
  | look | run | star | plus | group => cases h

/-- The words that a node spells behind an assertion that they stand at the edge of a word. -/
def edgeWords? : Node → Option (List (List Char))
  | look (.word .boundary false) => some [[]]
  | cat x y => do
    let words ← x.edgeWords?
    let others ← y.words?
    return eachWith words others
  | _ => none

def atEdge (before after : List Char) : Prop :=
  (Look.word .boundary false).holds before after = true

theorem takes_iff_of_edgeWords? (h : x.edgeWords? = some words) :
    x.Takes before text after recorded ↔
      text ∈ words ∧ recorded = [] ∧ atEdge before (text ++ after) := by
  induction x generalizing words before text after recorded with
  | look l =>
      rw [edgeWords?.eq_def] at h
      split at h
      · next heq =>
        obtain rfl := Node.look.inj heq
        obtain rfl := Option.some.inj h
        constructor
        · intro htakes
          cases htakes with
          | look holds => exact ⟨List.mem_singleton_self _, rfl, holds⟩
        · rintro ⟨htext, rfl, hedge⟩
          obtain rfl := List.mem_singleton.mp htext
          exact .look hedge
      · next heq => cases heq
      · cases h
  | cat x y ihx ihy =>
      obtain ⟨xs, hxs, hrest⟩ := Option.bind_eq_some_iff.mp h
      obtain ⟨ys, hys, hwords⟩ := Option.bind_eq_some_iff.mp hrest
      obtain rfl := Option.some.inj hwords
      rw [mem_eachWith]
      constructor
      · intro htakes
        cases htakes with
        | cat head tail =>
            obtain ⟨hfirst, rfl, hedge⟩ := (ihx hxs).mp head
            obtain ⟨hsecond, rfl⟩ := (takes_iff_of_words? hys).mp tail
            rw [← List.append_assoc] at hedge
            exact ⟨⟨_, hfirst, _, hsecond, rfl⟩, rfl, hedge⟩
      · rintro ⟨⟨first, hfirst, second, hsecond, rfl⟩, rfl, hedge⟩
        rw [List.append_assoc] at hedge
        exact .cat ((ihx hxs).mpr ⟨hfirst, rfl, hedge⟩)
          ((takes_iff_of_words? hys).mpr ⟨hsecond, rfl⟩)
  | empty | set | alt | run | star | plus | group => cases h

/-- The names in front of the bracket, for a node that takes an opener. -/
def openerNames? : Node → Option (List (List Char))
  | cat (cat x (run _ .blank)) (set (.one '<')) => x.edgeWords?
  | _ => none

theorem takes_iff_of_openerNames? {names : List (List Char)} (h : x.openerNames? = some names) :
    x.Takes before text after recorded ↔ ∃ name ∈ names, ∃ gap,
      (∀ c ∈ gap, Unicode.isBlank c = true) ∧ text = name ++ gap ++ ['<'] ∧ recorded = [] ∧
        atEdge before (text ++ after) := by
  rw [openerNames?.eq_def] at h
  split at h
  · next y greedy =>
    constructor
    · intro htakes
      cases htakes with
      | cat front bracket =>
          cases front with
          | cat head gap =>
              cases gap with
              | run hgap =>
                  cases bracket with
                  | set mem =>
                      obtain rfl : _ = '<' := by simpa [CharSet.contains] using mem
                      obtain ⟨hname, rfl, hedge⟩ := (takes_iff_of_edgeWords? h).mp head
                      exact ⟨_, hname, _, hgap, rfl, rfl, by simpa using hedge⟩
    · rintro ⟨name, hname, gap, hgap, rfl, rfl, hedge⟩
      have hfront : atEdge before (name ++ (gap ++ (['<'] ++ after))) := by simpa using hedge
      have hhead : y.Takes before name (gap ++ (['<'] ++ after)) [] :=
        (takes_iff_of_edgeWords? h).mpr ⟨hname, rfl, hfront⟩
      have hrun : (run greedy .blank).Takes (name.reverse ++ before) gap (['<'] ++ after) [] :=
        .run hgap
      have hbracket : (set (.one '<')).Takes ((name ++ gap).reverse ++ before) ['<'] after [] :=
        .set rfl
      exact .cat (.cat hhead hrun) hbracket
  · cases h

end Node

end ClassSkeleton.Pattern
