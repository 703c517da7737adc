import ClassSkeleton.Proofs.Rules.Seams
import ClassSkeleton.Proofs.Rules.Spotting
import ClassSkeleton.Proofs.Text.Trimming

namespace ClassSkeleton.Rules

/-!
# Turns

The rules for the names of types take a word, or a word with another behind blanks, and put a text
there that is fixed. They do so unless a word goes on into the first or out of the last.
-/

open Pattern Text

section Spelling

/-- The pieces that spell a text. -/
def letters (word : List Char) : List Piece := word.map fun c => .one (.one c)

/-- The pieces that spell a text from which no word goes on. -/
def whole (word : List Char) : List Piece :=
  letters word ++ if word.getLast?.any Unicode.isWord then [.look (.word .boundary false)] else []

theorem take?_letters {word : List Char} {pieces : List Piece} {prev : Option Char}
    {text taken rest : List Char} (h : take? (letters word ++ pieces) prev text = some (taken, rest)) :
    ∃ tail more, text = word ++ tail ∧ taken = word ++ more ∧
      take? pieces (word.getLast?.or prev) tail = some (more, rest) := by
  induction word generalizing prev text taken with
  | nil => exact ⟨text, taken, rfl, rfl, h⟩
  | cons c word ih =>
      rcases text with _ | ⟨d, text⟩
      · cases h
      · rw [letters, List.map_cons, List.cons_append, take?] at h
        obtain ⟨hd, hmap⟩ := Option.ite_none_right_eq_some.mp h
        obtain ⟨found, hfound, heq⟩ := Option.map_eq_some_iff.mp hmap
        obtain ⟨rfl, rfl⟩ := Prod.mk.inj heq
        obtain rfl : d = c := eq_of_beq hd
        obtain ⟨tail, more, rfl, hmore, htake⟩ := ih hfound
        refine ⟨tail, more, rfl, by rw [hmore, List.cons_append], ?_⟩
        rwa [getLast?_cons_or]

theorem take?_letters_append (word : List Char) (pieces : List Piece) (prev : Option Char)
    (text : List Char) : take? (letters word ++ pieces) prev (word ++ text) =
      (take? pieces (word.getLast?.or prev) text).map fun found => (word ++ found.1, found.2) := by
  induction word generalizing prev with
  | nil => simp [letters]
  | cons c word ih =>
      have hc : (CharSet.one c).contains c = true := by simp [CharSet.contains]
      rw [letters, List.map_cons, List.cons_append, List.cons_append, take?, if_pos hc, ← letters,
        ih, Option.map_map, getLast?_cons_or]
      rfl

/-- Whether no word goes on from a text into what is behind it. -/
def Closes (word rest : List Char) : Prop :=
  ∀ c ∈ word.getLast?, Unicode.isWord c = true → ∀ d ∈ rest.head?, Unicode.isWord d = false

theorem take?_whole {word : List Char} {prev : Option Char} {text taken rest : List Char}
    (h : take? (whole word) prev text = some (taken, rest)) :
    taken = word ∧ text = word ++ rest ∧ Closes word rest := by
  obtain ⟨tail, more, rfl, rfl, htake⟩ := take?_letters h
  cases hlast : word.getLast? with
  | none =>
      rw [hlast] at htake
      obtain ⟨rfl, rfl⟩ := Prod.mk.inj (Option.some.inj htake)
      refine ⟨List.append_nil word, rfl, ?_⟩
      rw [Closes, hlast]
      nofun
  | some c =>
      cases hc : Unicode.isWord c with
      | false =>
          rw [hlast, Option.any_some, hc] at htake
          obtain ⟨rfl, rfl⟩ := Prod.mk.inj (Option.some.inj htake)
          refine ⟨List.append_nil word, rfl, ?_⟩
          rintro d hd hword
          rw [hlast] at hd
          obtain rfl := Option.some.inj hd
          rw [hc] at hword
          cases hword
      | true =>
          rw [hlast, Option.any_some, hc, if_pos rfl, take?] at htake
          obtain ⟨hedge, htake⟩ := Option.ite_none_right_eq_some.mp htake
          obtain ⟨rfl, rfl⟩ := Prod.mk.inj (Option.some.inj htake)
          refine ⟨List.append_nil word, rfl, ?_⟩
          rintro - - - e he
          obtain ⟨back, rfl⟩ := List.head?_eq_some_iff.mp he
          simpa [Look.holds, Look.isWord, hc] using hedge

theorem take?_whole_append {word rest : List Char} (h : Closes word rest) (prev : Option Char) :
    take? (whole word) prev (word ++ rest) = some (word, rest) := by
  rw [whole, take?_letters_append]
  cases hlast : word.getLast? with
  | none => simp [take?]
  | some c =>
      cases hc : Unicode.isWord c with
      | false => simp [take?, hc]
      | true =>
          have hedge : (Look.word .boundary false).holds [c] rest = true := by
            rcases rest with _ | ⟨d, rest⟩
            · simp [Look.holds, Look.isWord, hc]
            · simp [Look.holds, Look.isWord, hc, h c hlast hc d rfl]
          simp [take?, hc, hedge]

theorem take?_blanks_whole {word : List Char} {prev : Option Char} {text taken rest : List Char}
    (h : take? (.many .blank :: whole word) prev text = some (taken, rest)) :
    ∃ gap, (∀ c ∈ gap, Unicode.isBlank c = true) ∧ taken = gap ++ word ∧ Closes word rest := by
  obtain ⟨⟨found, left⟩, hfound, heq⟩ := Option.map_eq_some_iff.mp h
  obtain ⟨rfl, hleft⟩ := Prod.mk.inj heq
  obtain rfl : left = rest := hleft
  obtain ⟨rfl, -, hcloses⟩ := take?_whole hfound
  exact ⟨text.takeWhile Unicode.isBlank,
    fun c hc => List.all_eq_true.mp List.all_takeWhile c hc, rfl, hcloses⟩

end Spelling

/-- A word, perhaps another behind blanks, of which there may have to be one, and what is put there
in their place. -/
structure Turn where
  word : List Char
  next : Option (Bool × List Char)
  out : List Char
  deriving DecidableEq

namespace Turn

def pieces (t : Turn) : List Piece :=
  match t.next with
  | none => whole t.word
  | some (least, second) =>
    letters t.word ++ ((if least then [.one .blank] else []) ++ .many .blank :: whole second)

def at? (t : Turn) : Spotter := fun prev text =>
  (take? t.pieces prev text).map fun found => (found.1, t.out)

/-- The word that is taken last. -/
def ending (t : Turn) : List Char := t.next.elim t.word Prod.snd

/-- Whether blanks have to stand behind the first word. -/
def isSpaced (t : Turn) : Bool := t.next.any Prod.fst

/-- A turn takes a text that starts with its word and ends with its last word. -/
theorem exists_of_at? {t : Turn} {prev : Option Char} {text taken out : List Char}
    (h : t.at? prev text = some (taken, out)) : out = t.out ∧
      ∃ more rest, text = taken ++ rest ∧ taken = t.word ++ more ∧ t.ending <:+ taken ∧
        Closes t.ending rest ∧
        (t.isSpaced = true → ∃ c ∈ more.head?, Unicode.isBlank c = true) := by
  obtain ⟨⟨taken', rest⟩, htake, heq⟩ := Option.map_eq_some_iff.mp h
  obtain ⟨htaken, rfl⟩ := Prod.mk.inj heq
  obtain rfl : taken' = taken := htaken
  have htext := take?_eq_append htake
  refine ⟨rfl, ?_⟩
  unfold pieces at htake
  split at htake
  · next hnext =>
      obtain ⟨rfl, -, hcloses⟩ := take?_whole htake
      have hending : t.ending = t.word := by rw [ending, hnext]; rfl
      refine ⟨[], rest, htext, (List.append_nil _).symm, ?_, ?_, ?_⟩
      · rw [hending]
      · rwa [hending]
      · rw [isSpaced, hnext]
        nofun
  · next least second hnext =>
      obtain ⟨tail, more, -, rfl, hbehind⟩ := take?_letters htake
      have hending : t.ending = second := by rw [ending, hnext]; rfl
      refine ⟨more, rest, htext, rfl, ?_⟩
      rw [hending]
      cases least with
      | false =>
          obtain ⟨gap, hgap, rfl, hcloses⟩ := take?_blanks_whole hbehind
          refine ⟨⟨t.word ++ gap, by rw [List.append_assoc]⟩, hcloses, ?_⟩
          rw [isSpaced, hnext]
          nofun
      | true =>
          rcases tail with _ | ⟨b, tail⟩
          · cases hbehind
          · rw [if_pos rfl, List.singleton_append, take?] at hbehind
            obtain ⟨hb, hmap⟩ := Option.ite_none_right_eq_some.mp hbehind
            obtain ⟨⟨found, left⟩, hfound, heq⟩ := Option.map_eq_some_iff.mp hmap
            obtain ⟨rfl, hleft⟩ := Prod.mk.inj heq
            obtain rfl : left = rest := hleft
            obtain ⟨gap, hgap, rfl, hcloses⟩ := take?_blanks_whole hfound
            refine ⟨⟨t.word ++ b :: gap, by simp⟩, hcloses, fun _ => ⟨b, rfl, hb⟩⟩

end Turn

/-- What the first of some turns takes that takes anything. -/
def turnAny (turns : List Turn) : Spotter := fun prev text =>
  turns.findSome? fun t => t.at? prev text

theorem turnAny_eq_some {turns : List Turn} {prev : Option Char} {text taken out : List Char}
    (h : turnAny turns prev text = some (taken, out)) :
    ∃ t ∈ turns, t.at? prev text = some (taken, out) := List.exists_of_findSome?_eq_some h

section Reading

/-- The text that pieces spell before anything else. -/
def lettersOf : List Piece → List Char
  | .one (.one c) :: pieces => c :: lettersOf pieces
  | _ => []

/-- The turn that a phrase is, if it is one. -/
def turn? (ph : Phrase) : Option Turn :=
  let pieces := ph.front ++ ph.back
  let word := lettersOf pieces
  let next := match pieces.drop word.length with
    | .one .blank :: .many .blank :: rest => some (true, lettersOf rest)
    | .many .blank :: rest => some (false, lettersOf rest)
    | _ => none
  let t : Turn := ⟨word, next, ph.lit ++ lettersOf ph.back⟩
  if t.pieces = pieces ∧ (ph.back = [] ∨ ph.back = whole (lettersOf ph.back)) then some t else none

theorem at?_of_turn? {ph : Phrase} {t : Turn} (h : turn? ph = some t) (prev : Option Char)
    (text : List Char) : ph.at? prev text = t.at? prev text := by
  obtain ⟨⟨hpieces, hback⟩, ht⟩ := Option.ite_none_right_eq_some.mp h
  rw [Option.some.inj ht] at hpieces
  have hout : t.out = ph.lit ++ lettersOf ph.back := by rw [← Option.some.inj ht]
  rw [Turn.at?, hpieces, take?_append, Option.map_bind, hout, Phrase.at?]
  congr 1
  funext first
  rw [Function.comp_apply, Option.map_map]
  cases hsecond : take? ph.back (first.1.getLast?.or prev) first.2 with
  | none => rfl
  | some second =>
      have htaken : second.1 = lettersOf ph.back := by
        rcases hback with hnil | hwhole
        · rw [hnil] at hsecond ⊢
          obtain rfl := Option.some.inj hsecond
          rfl
        · rw [hwhole] at hsecond
          exact (take?_whole hsecond).1
      simp [htaken]

/-- A phrase that starts with the edge of a word, without it. -/
def unedged? (ph : Phrase) : Option Phrase :=
  match ph.front with
  | .look (.word .boundary false) :: .one (.one c) :: pieces =>
    if Unicode.isWord c then some ⟨.one (.one c) :: pieces, ph.lit, ph.back⟩ else none
  | _ => none

theorem at?_of_unedged? {ph inner : Phrase} (h : unedged? ph = some inner) (prev : Option Char)
    (text : List Char) : ph.at? prev text = behind (.compl .word) inner.at? prev text := by
  unfold unedged? at h
  split at h
  · next c pieces hfront =>
      obtain ⟨hc, hinner⟩ := Option.ite_none_right_eq_some.mp h
      obtain rfl := Option.some.inj hinner
      have hfirst : take? ph.front prev text = if prev.all (CharSet.compl .word).contains then
          take? (.one (.one c) :: pieces) prev text else none := by
        rw [hfront, take?]
        rcases text with _ | ⟨d, text⟩
        · rw [take?, ite_self, ite_self]
        · by_cases hd : d = c
          · subst hd
            cases prev <;> simp [Look.holds, Look.isWord, CharSet.contains, hc]
          · have hnone : take? (.one (.one c) :: pieces) prev (d :: text) = none := by
              simp [take?, CharSet.contains, hd]
            rw [hnone, ite_self, ite_self]
      rw [behind, Phrase.at?, Phrase.at?, hfirst]
      split <;> rfl
  · cases h

theorem spotAny_eq_turnAny {phs : List Phrase} {f : Phrase → Option Turn} {prev : Option Char}
    {text : List Char} (h : ∀ ph ∈ phs, ∃ t, f ph = some t ∧ ph.at? prev text = t.at? prev text) :
    spotAny phs prev text = turnAny (phs.filterMap f) prev text := by
  induction phs with
  | nil => rfl
  | cons ph phs ih =>
      obtain ⟨⟨t, ht, heq⟩, hrest⟩ := List.forall_mem_cons.mp h
      have htail := ih hrest
      rw [spotAny, turnAny] at htail
      rw [spotAny, turnAny, List.filterMap_cons_some ht, List.findSome?_cons, List.findSome?_cons,
        heq, htail]

/-- Phrases that are turns, all of them, take what the turns take. -/
theorem spotAny_eq_of_turn? {phs : List Phrase} (h : ∀ ph ∈ phs, (turn? ph).isSome = true) :
    spotAny phs = turnAny (phs.filterMap turn?) := by
  funext prev text
  refine spotAny_eq_turnAny fun ph hph => ?_
  obtain ⟨t, ht⟩ := Option.isSome_iff_exists.mp (h ph hph)
  exact ⟨t, ht, at?_of_turn? ht prev text⟩

/-- Phrases that are turns at the edge of a word take what the turns take behind no word. -/
theorem spotAny_eq_of_unedged? {phs : List Phrase}
    (h : ∀ ph ∈ phs, ((unedged? ph).bind turn?).isSome = true) : spotAny phs =
      behind (.compl .word) (turnAny (phs.filterMap fun ph => (unedged? ph).bind turn?)) := by
  funext prev text
  have hone : ∀ ph ∈ phs, ∃ t, (unedged? ph).bind turn? = some t ∧
      ph.at? prev text = behind (.compl .word) t.at? prev text := by
    intro ph hph
    obtain ⟨t, ht⟩ := Option.isSome_iff_exists.mp (h ph hph)
    obtain ⟨inner, hinner, hturn⟩ := Option.bind_eq_some_iff.mp ht
    refine ⟨t, ht, ?_⟩
    rw [at?_of_unedged? hinner, behind, behind, at?_of_turn? hturn]
  by_cases hedge : prev.all (CharSet.compl .word).contains = true
  · rw [behind, if_pos hedge]
    refine spotAny_eq_turnAny fun ph hph => ?_
    obtain ⟨t, ht, hat⟩ := hone ph hph
    exact ⟨t, ht, by rw [hat, behind, if_pos hedge]⟩
  · rw [behind, if_neg hedge, spotAny, List.findSome?_eq_none_iff]
    intro ph hph
    obtain ⟨t, -, hat⟩ := hone ph hph
    rw [hat, behind, if_neg hedge]

end Reading

/-- Behind a turn that ends with a word the guard forbids another one. -/
theorem eq_none_behind_turn {guard : CharSet} {turns : List Turn}
    (hguard : ∀ {c}, Unicode.isWord c = true → guard.contains c = false)
    (hends : ∀ t ∈ turns, t.ending.getLast?.any Unicode.isWord = true) {prev : Option Char}
    {text taken out : List Char}
    (hfound : behind guard (turnAny turns) prev text = some (taken, out)) (rest : List Char) :
    behind guard (turnAny turns) taken.getLast? rest = none := by
  obtain ⟨t, ht, hat⟩ := turnAny_eq_some (Option.ite_none_right_eq_some.mp hfound).2
  obtain ⟨-, more, back, -, -, ⟨front, rfl⟩, -⟩ := Turn.exists_of_at? hat
  obtain ⟨c, hc, hword⟩ := (Option.any_eq_true _ _).mp (hends t ht)
  rw [behind, List.getLast?_append, hc, Option.some_or, Option.all_some, hguard hword]
  rfl

theorem lawful_turnAny {turns : List Turn} (h : ∀ t ∈ turns, t.word ≠ []) :
    (turnAny turns).Lawful := by
  intro prev text taken out hfound
  obtain ⟨t, ht, hat⟩ := turnAny_eq_some hfound
  obtain ⟨-, more, rest, rfl, rfl, -⟩ := Turn.exists_of_at? hat
  exact ⟨List.append_ne_nil_of_left_ne_nil (h t ht) more, List.prefix_append _ rest⟩

namespace Standard

/-- The guard of an entry that takes turns, and its turns. Behind a guard they end with words. -/
def turning? (pattern template : List Char) : Option (CharSet × List Turn) :=
  match guarded? pattern template with
  | some (guard, phs) =>
    if phs.all fun ph => (turn? ph).any fun t => t.ending.getLast?.any Unicode.isWord then
      some (guard, phs.filterMap turn?)
    else none
  | none =>
    (phrases? pattern template).bind fun phs =>
      if phs.all fun ph => ((unedged? ph).bind turn?).isSome then
        some (.compl .word, phs.filterMap fun ph => (unedged? ph).bind turn?)
      else none

/-- An entry that takes turns takes them unless its guard forbids it. -/
theorem rewrites_of_turning? {pattern template : List Char} {guard : CharSet} {turns : List Turn}
    (h : turning? pattern template = some (guard, turns))
    (hguard : ∀ {c}, Unicode.isWord c = true → guard.contains c = false)
    (hturns : ∀ t ∈ turns, t.word ≠ []) (text : List Char) :
    Rewrites (behind guard (turnAny turns)) none text (replaceWith pattern template text) := by
  have hlawful : (turnAny turns).Lawful := lawful_turnAny hturns
  unfold turning? at h
  split at h
  · next guard' phs hguarded =>
      obtain ⟨hall, hsome⟩ := Option.ite_none_right_eq_some.mp h
      obtain ⟨rfl, rfl⟩ := Prod.mk.inj (Option.some.inj hsome)
      rw [List.all_eq_true] at hall
      have hspots : spotAny phs = turnAny (phs.filterMap turn?) := by
        refine spotAny_eq_of_turn? fun ph hph => ?_
        obtain ⟨t, ht, -⟩ := (Option.any_eq_true _ _).mp (hall ph hph)
        rw [ht, Option.isSome_some]
      have hends : ∀ t ∈ phs.filterMap turn?, t.ending.getLast?.any Unicode.isWord = true := by
        intro t ht
        obtain ⟨ph, hph, hturn⟩ := List.mem_filterMap.mp ht
        have hone := hall ph hph
        rwa [hturn, Option.any_some] at hone
      rw [← hspots] at hlawful ⊢
      refine rewrites_of_guarded? hguarded hlawful ?_ text
      rw [hspots]
      exact eq_none_behind_turn hguard hends
  · next hnone =>
      obtain ⟨phs, hphrases, h⟩ := Option.bind_eq_some_iff.mp h
      obtain ⟨hall, hsome⟩ := Option.ite_none_right_eq_some.mp h
      obtain ⟨rfl, rfl⟩ := Prod.mk.inj (Option.some.inj hsome)
      have hspots := spotAny_eq_of_unedged? (List.all_eq_true.mp hall)
      rw [← hspots]
      refine rewrites_of_phrases? hphrases ?_ text
      rw [hspots]
      exact lawful_behind hlawful

end Standard

end ClassSkeleton.Rules
