import ClassSkeleton.Proofs.Rules.Turns

namespace ClassSkeleton.Rules

/-!
# Turns on both sides of a cut

A rule that takes turns does to a text what it does to its halves, if no turn of it goes over the
cut. What it puts there makes no turn of a later rule go over the cut.
-/

open Pattern Text Standard

/-- Whether what is in front of a character may belong to it, once brackets are taken off. -/
def isOpen (c : Char) : Bool := isNameChar c || c == '@' || c == '>'

theorem not_isOpen_of_isBlank {c : Char} (h : Unicode.isBlank c = true) : isOpen c = false := by
  have hat : c ≠ '@' := by
    rintro rfl
    exact absurd h (by decide)
  have hclose : c ≠ '>' := by
    rintro rfl
    exact absurd h (by decide)
  simp [isOpen, not_isNameChar_of_isBlank h, hat, hclose]

/-- Whether no name starts behind a text that is open at its end. -/
def Apart (left right : List Char) : Prop :=
  ∀ c ∈ left.getLast?, isOpen c = true → ∀ d ∈ right.head?, isNameChar d = false

instance (left right : List Char) : Decidable (Apart left right) :=
  decidable_of_iff (left.getLast?.all fun c => !isOpen c || right.head?.all fun d => !isNameChar d)
    (by simp [Apart, Option.all_eq_true, ← imp_iff_not_or, ← Bool.not_eq_true])

/-- Whether no front of a word can be an end of what is put there. -/
def isForeign (word out : List Char) : Bool :=
  word.inits.all fun front => front.isEmpty || !(front.isSuffixOf out || out.isSuffixOf front)

theorem not_suffix_of_isForeign {word out front : List Char} (h : isForeign word out = true)
    (hfront : front <+: word) (hne : front ≠ []) : ¬ front <:+ out ∧ ¬ out <:+ front := by
  have hcheck := List.all_eq_true.mp h front ((List.mem_inits _ _).mpr hfront)
  simp only [Bool.or_eq_true, List.isEmpty_iff, Bool.not_eq_true', Bool.or_eq_false_iff] at hcheck
  obtain ⟨hout, hleft⟩ := hcheck.resolve_left hne
  rw [← Bool.not_eq_true, List.isSuffixOf_iff_suffix] at hout hleft
  exact ⟨hout, hleft⟩

/-- A word at the start of a text still starts it when something else stands behind its edge. -/
theorem starts_of_front {word passed after : List Char}
    (hfront : ∀ c ∈ (word ++ passed).getLast?, Unicode.isWord c = false)
    (hedge : ∀ c ∈ word.getLast?, Unicode.isWord c = true →
      ∀ d ∈ (passed ++ after).head?, Unicode.isWord d = false) (other : List Char) :
    Starts word ((word ++ passed) ++ other) := by
  refine ⟨passed ++ other, List.append_assoc _ _ _, ?_⟩
  intro c hc hword d hd
  rcases passed with _ | ⟨e, passed⟩
  · rw [List.append_nil] at hfront
    rw [hfront c hc] at hword
    cases hword
  · exact hedge c hc hword d hd

namespace Turn

/-- Whether what a turn puts there is bounded by the same kinds of characters as what it takes. -/
def isSound (t : Turn) : Bool :=
  t.word.head?.any Unicode.isWord && t.out.head?.any (fun c => !Unicode.isBlank c) &&
    t.ending.getLast?.any fun c => t.out.getLast?.any fun d =>
      !Unicode.isBlank d && (!Unicode.isWord c || Unicode.isWord d) && (!isOpen d || isOpen c)

/-- Whether what a turn puts there brings neither side of a seam about. -/
def isClear (seam : Seam) (t : Turn) : Bool :=
  isForeign seam.1 t.out && t.out.head?.any fun c =>
    !seam.2.contains c || (!seam.2.tail.contains c && t.word == seam.2 && t.isSpaced)

/-- The seam between the words of a turn, if it has two. -/
def seam? (t : Turn) : Option Seam := t.next.map fun next => (t.word, next.2)

/-- Whether a turn goes over a cut only at its seam. -/
def isSeamed (t : Turn) : Bool := seams? [] true (some []) t.pieces == some t.seam?.toList

variable {t : Turn}

theorem at?_blind {c : Char} {word : List Char} (hword : t.word = c :: word)
    (prev other : Option Char) (text : List Char) : t.at? prev text = t.at? other text := by
  rw [at?, at?, pieces]
  split <;> rw [hword] <;> cases text <;> rfl

theorem exists_of_isSound (h : t.isSound = true) :
    (∃ c rest, t.word = c :: rest ∧ Unicode.isWord c = true) ∧
      (∃ c rest, t.out = c :: rest ∧ Unicode.isBlank c = false) ∧
      ∃ c d, t.ending.getLast? = some c ∧ t.out.getLast? = some d ∧ Unicode.isBlank d = false ∧
        (Unicode.isWord c = true → Unicode.isWord d = true) ∧
        (isOpen d = true → isOpen c = true) := by
  obtain ⟨hboth, hends⟩ := (Bool.and_eq_true _ _).mp h
  obtain ⟨hword, hout⟩ := (Bool.and_eq_true _ _).mp hboth
  obtain ⟨c, hc, hcword⟩ := (Option.any_eq_true _ _).mp hword
  obtain ⟨d, hd, hdblank⟩ := (Option.any_eq_true _ _).mp hout
  obtain ⟨rest, hrest⟩ := List.head?_eq_some_iff.mp hc
  obtain ⟨more, hmore⟩ := List.head?_eq_some_iff.mp hd
  obtain ⟨e, he, hlast⟩ := (Option.any_eq_true _ _).mp hends
  obtain ⟨f, hf, hall⟩ := (Option.any_eq_true _ _).mp hlast
  refine ⟨⟨c, rest, hrest, hcword⟩, ⟨d, more, hmore, by simpa using hdblank⟩, e, f, he, hf, ?_⟩
  simp only [Bool.and_eq_true, Bool.or_eq_true, Bool.not_eq_true'] at hall
  obtain ⟨⟨hblank, hwords⟩, hopen⟩ := hall
  refine ⟨hblank, fun hw => hwords.resolve_left (by simp [hw]), fun ho => hopen.resolve_left ?_⟩
  simp [ho]

/-- A word behind what a turn puts there has stood behind what the turn has taken. -/
theorem ends_of_behind (h : t.isSound = true) {word before more : List Char}
    (hedge : ∀ c ∈ (before ++ (t.out ++ more)).getLast?, Unicode.isWord c = false)
    (front : List Char) : Ends word (front ++ (t.ending ++ (more ++ word))) := by
  obtain ⟨-, -, e, d, he, hd, -, hwords, -⟩ := exists_of_isSound h
  refine ⟨front ++ (t.ending ++ more), by simp, ?_⟩
  intro c hc
  rcases List.eq_nil_or_concat more with rfl | ⟨more, f, rfl⟩
  · rw [List.append_nil, List.getLast?_append, he, Option.some_or] at hc
    obtain rfl := Option.some.inj hc
    rw [List.append_nil, List.getLast?_append, hd, Option.some_or] at hedge
    by_contra hword
    have hnot := hedge d rfl
    rw [hwords (by simpa using hword)] at hnot
    cases hnot
  · exact hedge c (by simpa using hc)

/-- Only a turn of the word itself, with blanks behind it, may put a character of the word there. -/
theorem of_isClear {seam : Seam} (h : t.isClear seam = true) {d : Char} {out : List Char}
    (hout : t.out = d :: out) (hmem : d ∈ seam.2) :
    d ∉ seam.2.tail ∧ t.word = seam.2 ∧ t.isSpaced = true := by
  have hcheck := ((Bool.and_eq_true _ _).mp h).2
  rw [hout, List.head?_cons, Option.any_some] at hcheck
  simp only [Bool.or_eq_true, Bool.and_eq_true, Bool.not_eq_true', beq_iff_eq] at hcheck
  rw [List.contains_iff_mem.mpr hmem] at hcheck
  obtain ⟨⟨htail, hturn⟩, hspace⟩ := hcheck.resolve_left (by decide)
  refine ⟨fun hlater => ?_, hturn, hspace⟩
  rw [List.contains_iff_mem.mpr hlater] at htail
  cases htail

end Turn

section Turned

variable {guard : CharSet} {turns : List Turn} {turn : List Char → List Char}

/-- Whether a function rewrites a text by turns behind a guard. -/
structure TakesTurns (guard : CharSet) (turns : List Turn) (turn : List Char → List Char) :
    Prop where
  rewrites : ∀ text, Rewrites (behind guard (turnAny turns)) none text (turn text)
  sound : ∀ t ∈ turns, t.isSound = true
  seamed : ∀ t ∈ turns, t.isSeamed = true
  word : ∀ {c}, Unicode.isWord c = true → guard.contains c = false
  other : ∀ {c}, guard.contains c = false → isNameChar c = true ∨ c = '@'

namespace TakesTurns

/-- A text comes through unchanged, or there is a first turn. -/
theorem first (h : TakesTurns guard turns turn) (text : List Char) : turn text = text ∨
    ∃ t ∈ turns, ∃ front more behind, text = front ++ (t.word ++ more) ∧
      turn text = front ++ (t.out ++ behind) ∧ (∀ c ∈ front.getLast?, Unicode.isWord c = false) ∧
        (t.isSpaced = true → ∃ c ∈ more.head?, Unicode.isBlank c = true) := by
  rcases (h.rewrites text).first with
    heq | ⟨front, taken, back, out, behind, htext, hfound, -, hnew⟩
  · exact Or.inl heq
  · obtain ⟨hguard, hfound⟩ := Option.ite_none_right_eq_some.mp hfound
    obtain ⟨t, ht, hat⟩ := turnAny_eq_some hfound
    obtain ⟨rfl, more, rest, -, rfl, -, -, hspaced⟩ := Turn.exists_of_at? hat
    refine Or.inr ⟨t, ht, front, more ++ back, behind, ?_, hnew, ?_, ?_⟩
    · rw [htext, List.append_assoc]
    · intro c hc
      rw [Option.mem_def.mp hc, Option.some_or, Option.all_some] at hguard
      by_contra hword
      rw [h.word (by simpa using hword)] at hguard
      cases hguard
    · intro hspace
      obtain ⟨c, hc, hblank⟩ := hspaced hspace
      refine ⟨c, ?_, hblank⟩
      rw [List.head?_append, Option.mem_def.mp hc]
      rfl

/-- A text comes through unchanged, or there is a last turn. -/
theorem last (h : TakesTurns guard turns turn) (text : List Char) : turn text = text ∨
    ∃ t ∈ turns, ∃ front before rest, text = front ++ (t.ending ++ rest) ∧
      turn text = before ++ (t.out ++ rest) := by
  rcases (h.rewrites text).last with
    heq | ⟨front, taken, back, out, p, before, htext, hfound, -, hnew⟩
  · exact Or.inl heq
  · obtain ⟨t, ht, hat⟩ := turnAny_eq_some (Option.ite_none_right_eq_some.mp hfound).2
    obtain ⟨rfl, more, rest, -, -, ⟨first, rfl⟩, -⟩ := Turn.exists_of_at? hat
    exact Or.inr ⟨t, ht, front ++ first, before, back, by simp [htext], hnew⟩

/-- What stands at the end of a text stays open there, and no blank comes to stand there. -/
theorem of_getLast? (h : TakesTurns guard turns turn) {text : List Char} {c : Char}
    (hc : text.getLast? = some c) (hblank : Unicode.isBlank c = false) :
    ∃ d, (turn text).getLast? = some d ∧ Unicode.isBlank d = false ∧
      (isOpen d = true → isOpen c = true) := by
  rcases h.last text with heq | ⟨t, ht, front, before, rest, rfl, heq⟩
  · exact ⟨c, by rw [heq, hc], hblank, fun ho => ho⟩
  · obtain ⟨-, -, e, d, he, hd, hdblank, -, hopen⟩ := Turn.exists_of_isSound (h.sound t ht)
    rw [heq]
    rcases List.eq_nil_or_concat rest with rfl | ⟨rest, f, rfl⟩
    · have hec : c = e := by
        rw [List.append_nil, List.getLast?_append, he, Option.some_or] at hc
        exact (Option.some.inj hc).symm
      subst hec
      exact ⟨d, by rw [List.append_nil, List.getLast?_append, hd, Option.some_or], hdblank, hopen⟩
    · have hfc : c = f := by simpa [eq_comm] using hc
      subst hfc
      exact ⟨c, by simp, hblank, fun ho => ho⟩

/-- Where no name starts a text, none does so then, and no blank comes to stand there. -/
theorem of_head? (h : TakesTurns guard turns turn) {text : List Char} {c : Char}
    (hc : text.head? = some c) (hblank : Unicode.isBlank c = false) :
    ∃ d, (turn text).head? = some d ∧ Unicode.isBlank d = false ∧
      (isNameChar d = true → isNameChar c = true) := by
  rcases h.first text with heq | ⟨t, ht, front, more, behind, rfl, heq, -⟩
  · exact ⟨c, by rw [heq, hc], hblank, fun hname => hname⟩
  · obtain ⟨⟨e, word, hword, he⟩, ⟨d, out, hout, hd⟩, -⟩ := Turn.exists_of_isSound (h.sound t ht)
    rw [heq]
    rcases front with _ | ⟨f, front⟩
    · rw [List.nil_append, hword, List.cons_append, List.head?_cons] at hc
      obtain rfl := Option.some.inj hc
      exact ⟨d, by rw [List.nil_append, hout, List.cons_append, List.head?_cons], hd,
        fun _ => by rw [isNameChar, he, Bool.true_or]⟩
    · exact ⟨c, hc, hblank, fun hname => hname⟩

theorem tidy (h : TakesTurns guard turns turn) {text : List Char} (htext : Tidy text) :
    Tidy (turn text) := by
  have hlast := List.getLast?_eq_some_getLast htext.nonempty
  have hhead := List.head?_eq_some_head htext.nonempty
  obtain ⟨d, hd, hdblank, -⟩ := h.of_getLast? hlast (htext.back _ hlast)
  obtain ⟨e, he, heblank, -⟩ := h.of_head? hhead (htext.front _ hhead)
  refine ⟨?_, ?_, ?_⟩
  · intro hnil
    rw [hnil] at hd
    cases hd
  · intro c hc
    rw [he] at hc
    obtain rfl := Option.some.inj hc
    exact heblank
  · intro c hc
    rw [hd] at hc
    obtain rfl := Option.some.inj hc
    exact hdblank

theorem apart (h : TakesTurns guard turns turn) {left right : List Char} (hleft : Tidy left)
    (hright : Tidy right) (hapart : Apart left right) : Apart (turn left) (turn right) := by
  have hlast := List.getLast?_eq_some_getLast hleft.nonempty
  have hhead := List.head?_eq_some_head hright.nonempty
  obtain ⟨d, hd, -, hopen⟩ := h.of_getLast? hlast (hleft.back _ hlast)
  obtain ⟨e, he, -, hname⟩ := h.of_head? hhead (hright.front _ hhead)
  intro c hc ho f hf
  rw [hd] at hc
  rw [he] at hf
  obtain rfl := Option.some.inj hc
  obtain rfl := Option.some.inj hf
  have hnot := hapart _ hlast (hopen ho) _ hhead
  by_contra hf
  rw [hname (by simpa using hf)] at hnot
  cases hnot

/-- No word comes to stand at the end of a text if what is put there cannot be a part of it. -/
theorem ends (h : TakesTurns guard turns turn) {word text : List Char}
    (hforeign : ∀ t ∈ turns, isForeign word t.out = true) (hends : Ends word (turn text)) :
    Ends word text := by
  rcases h.last text with heq | ⟨t, ht, front, before, rest, rfl, heq⟩
  · rwa [heq] at hends
  · obtain ⟨passed, hparts, hedge⟩ := hends
    rw [heq, ← List.append_assoc] at hparts
    rcases List.append_eq_append_iff.mp hparts with
      ⟨more, rfl, rfl⟩ | ⟨extra, hpassed, hword⟩
    · rw [List.append_assoc] at hedge
      exact Turn.ends_of_behind (h.sound t ht) hedge front
    · rcases eq_or_ne extra [] with rfl | hne
      · obtain rfl : word = rest := hword
        rw [List.append_nil] at hpassed
        rw [← hpassed, ← List.append_nil t.out] at hedge
        exact Turn.ends_of_behind (h.sound t ht) hedge front
      · -- Then the word starts within what has been put there.
        obtain ⟨hout, hleft⟩ := not_suffix_of_isForeign (hforeign t ht) ⟨rest, hword.symm⟩ hne
        rcases List.append_eq_append_iff.mp hpassed with ⟨left, -, heq⟩ | ⟨left, -, heq⟩
        · exact absurd ⟨left, heq.symm⟩ hout
        · exact absurd ⟨left, heq.symm⟩ hleft

/-- No word comes to stand at the start of a text but one that has been taken there. -/
theorem starts (h : TakesTurns guard turns turn) {seam : Seam} {text : List Char}
    (hclear : ∀ t ∈ turns, t.isClear seam = true) (hstarts : Starts seam.2 (turn text)) :
    Starts seam.2 text := by
  rcases h.first text with heq | ⟨t, ht, front, more, behind, rfl, heq, hfront, hspaced⟩
  · rwa [heq] at hstarts
  · obtain ⟨back, hparts, hedge⟩ := hstarts
    rw [heq] at hparts
    rcases List.append_eq_append_iff.mp hparts with ⟨extra, hword, hrest⟩ | ⟨passed, rfl, rfl⟩
    · rcases extra with _ | ⟨f, extra⟩
      · obtain rfl : t.out ++ behind = back := hrest
        obtain rfl : seam.2 ++ [] = front := by rw [List.append_nil, hword, List.append_nil]
        exact starts_of_front hfront hedge _
      · -- Then the word goes on into what has been put there.
        obtain ⟨-, ⟨d, out, hout, -⟩, -⟩ := Turn.exists_of_isSound (h.sound t ht)
        rw [hout, List.cons_append, List.cons_append] at hrest
        obtain ⟨rfl, -⟩ := List.cons.inj hrest
        obtain ⟨htail, hturn, hspace⟩ :=
          Turn.of_isClear (hclear t ht) hout (by rw [hword]; simp)
        rcases front with _ | ⟨e, front⟩
        · obtain ⟨c, hc, hblank⟩ := hspaced hspace
          refine ⟨more, by rw [← hturn]; rfl, ?_⟩
          intro _ _ _ e he
          rw [Option.mem_def.mp hc] at he
          obtain rfl := Option.some.inj he
          exact Unicode.not_isWord_of_isBlank hblank
        · exact absurd (by rw [hword]; simp) htail
    · exact starts_of_front hfront hedge _

/-- Where no word starts, nothing is taken. -/
theorem spot_eq_none (h : TakesTurns guard turns turn) {c : Char} (hc : Unicode.isWord c = false)
    (prev : Option Char) (text : List Char) :
    behind guard (turnAny turns) prev (c :: text) = none := by
  rw [Option.eq_none_iff_forall_ne_some]
  rintro ⟨taken, out⟩ hfound
  obtain ⟨t, ht, hat⟩ := turnAny_eq_some (Option.ite_none_right_eq_some.mp hfound).2
  obtain ⟨⟨d, word, hword, hd⟩, -⟩ := Turn.exists_of_isSound (h.sound t ht)
  obtain ⟨-, more, rest, htext, rfl, -⟩ := Turn.exists_of_at? hat
  rw [hword] at htext
  obtain rfl := (List.cons.inj htext).1
  rw [hd] at hc
  cases hc

theorem spot_blind (h : TakesTurns guard turns turn) (prev other : Option Char) (text : List Char) :
    turnAny turns prev text = turnAny turns other text := by
  refine findSome?_congr fun t ht => ?_
  obtain ⟨⟨c, word, hword, -⟩, -⟩ := Turn.exists_of_isSound (h.sound t ht)
  exact Turn.at?_blind hword prev other text

end TakesTurns

end Turned

/-- Two tidy texts with blanks in between, at which no name and no seam comes together. -/
structure Joined (seams : List Seam) (gap left right : List Char) : Prop where
  front : Tidy left
  back : Tidy right
  blank : ∀ c ∈ gap, Unicode.isBlank c = true
  apart : gap = [] → Apart left right
  seams : ∀ seam ∈ seams, ¬ (Ends seam.1 left ∧ Starts seam.2 right)

namespace Joined

variable {seams : List Seam} {gap left right : List Char}

theorem stops (h : Joined seams gap left right) : Stops [] true left (gap ++ right) where
  last := by
    have hlast := List.getLast?_eq_some_getLast h.front.nonempty
    exact ⟨_, hlast, h.front.back _ hlast, List.not_mem_nil⟩
  apart := by
    intro _ c hc hname d hd
    rcases gap with _ | ⟨b, gap⟩
    · have hopen : isOpen c = true := by rw [isOpen, hname]; rfl
      exact h.apart rfl c hc hopen d hd
    · rw [List.cons_append, List.head?_cons] at hd
      obtain rfl := Option.some.inj hd
      exact not_isNameChar_of_isBlank (h.blank b List.mem_cons_self)

theorem not_joins (h : Joined seams gap left right) {seam : Seam} (hseam : seam ∈ seams) :
    ¬ seam.Joins left (gap ++ right) := by
  rintro ⟨hends, hstarts⟩
  have hdrop : (gap ++ right).dropWhile Unicode.isBlank = right :=
    trimStart_append h.blank h.back.front
  rw [hdrop] at hstarts
  exact h.seams seam hseam ⟨hends, hstarts⟩

variable {guard : CharSet} {turns : List Turn} {turn : List Char → List Char}

/-- In front of the cut the same turns are taken whether the other half follows or not. -/
theorem spot_front (h : Joined seams gap left right) (hturns : TakesTurns guard turns turn)
    (hseams : ∀ t ∈ turns, ∀ seam ∈ t.seam?, seam ∈ seams) {front back : List Char}
    (hparts : left = front ++ back) (hne : back ≠ []) :
    behind guard (turnAny turns) (front.getLast?.or none) (back ++ (gap ++ right)) =
      behind guard (turnAny turns) (front.getLast?.or none) back := by
  rw [behind, behind]
  split
  · next hguard =>
      refine findSome?_congr fun t ht => ?_
      have hseamed := eq_of_beq (hturns.seamed t ht)
      have htracks : Tracks left (some []) back := by
        refine ⟨front, hparts, fun _ c hc => ?_⟩
        rw [Option.mem_def.mp hc, Option.some_or, Option.all_some] at hguard
        by_contra hword
        rw [hturns.word (by simpa using hword)] at hguard
        cases hguard
      have hagrees := agrees_of_seams? hseamed h.stops
        (fun seam hseam => h.not_joins (hseams t ht seam (by simpa using hseam))) htracks hne
        (front.getLast?.or none)
      rw [Agrees] at hagrees
      rw [Turn.at?, Turn.at?, hagrees, Option.map_map]
      rfl
  · rfl

/-- No guard forbids a turn behind the cut: what stands in front would be a part of a name. -/
theorem guard_holds (h : Joined seams gap left right) (hturns : TakesTurns guard turns turn)
    {d : Char} {rest : List Char} (hright : right = d :: rest) (hd : Unicode.isWord d = true)
    {c : Char} (hc : c ∈ gap.getLast?.or left.getLast?) : guard.contains c = true := by
  by_contra hguard
  have hnot := hturns.other (by simpa using hguard)
  cases hgap : gap.getLast? with
  | none =>
      rw [hgap, Option.none_or] at hc
      have hopen : isOpen c = true := by
        rcases hnot with hname | rfl
        · rw [isOpen, hname]
          rfl
        · decide
      have hhead := h.apart (List.getLast?_eq_none_iff.mp hgap) c hc hopen d (by rw [hright]; rfl)
      rw [isNameChar, hd] at hhead
      cases hhead
  | some b =>
      rw [hgap, Option.some_or] at hc
      obtain rfl := Option.some.inj hc
      have hblank := h.blank b (List.mem_of_getLast? hgap)
      rcases hnot with hname | rfl
      · rw [not_isNameChar_of_isBlank hblank] at hname
        cases hname
      · exact absurd hblank (by decide)

/-- A text is turned as its halves are. -/
theorem turn_append (h : Joined seams gap left right) (hturns : TakesTurns guard turns turn)
    (hseams : ∀ t ∈ turns, ∀ seam ∈ t.seam?, seam ∈ seams) :
    turn (left ++ (gap ++ right)) = turn left ++ (gap ++ turn right) := by
  refine (hturns.rewrites _).eq ((hturns.rewrites left).append ?_ (.keep_append ?_ ?_))
  · exact fun front back hparts hne => h.spot_front hturns hseams hparts hne
  · exact fun c hc p rest =>
      hturns.spot_eq_none (Unicode.not_isWord_of_isBlank (h.blank c hc)) p rest
  · refine (hturns.rewrites right).of_start ?_
    obtain ⟨d, rest, hright⟩ := List.exists_cons_of_ne_nil h.back.nonempty
    rw [hright]
    cases hd : Unicode.isWord d with
    | false => rw [hturns.spot_eq_none hd, hturns.spot_eq_none hd]
    | true =>
        rw [behind, behind, hturns.spot_blind _ none, Option.all_none, if_pos rfl, if_pos]
        rw [Option.or_none, Option.all_eq_true]
        exact fun c hc => h.guard_holds hturns hright hd hc

/-- What is put there brings neither a name nor a seam to the cut. -/
theorem turned (h : Joined seams gap left right) (hturns : TakesTurns guard turns turn)
    {later : List Seam} (hlater : ∀ seam ∈ later, seam ∈ seams)
    (hclear : ∀ t ∈ turns, ∀ seam ∈ later, t.isClear seam = true) :
    Joined later gap (turn left) (turn right) where
  front := hturns.tidy h.front
  back := hturns.tidy h.back
  blank := h.blank
  apart := fun hnil => hturns.apart h.front h.back (h.apart hnil)
  seams := by
    rintro seam hseam ⟨hends, hstarts⟩
    refine h.seams seam (hlater seam hseam) ⟨?_, ?_⟩
    · exact hturns.ends (fun t ht => ((Bool.and_eq_true _ _).mp (hclear t ht seam hseam)).1) hends
    · exact hturns.starts (fun t ht => hclear t ht seam hseam) hstarts

end Joined

/-- The sets of characters that may stand in front of a turn. -/
def guards : List CharSet := [.compl .word, .compl (.union (.one '@') (.union .word .none)),
  .compl (.union (.one '@') (.union .word (.union (.one ':') .none)))]

theorem turns_of_turning? {pattern template : List Char} {guard : CharSet} {turns : List Turn}
    (h : turning? pattern template = some (guard, turns)) (hguard : guard ∈ guards)
    (hsound : ∀ t ∈ turns, t.isSound = true) (hseamed : ∀ t ∈ turns, t.isSeamed = true) :
    TakesTurns guard turns (replaceWith pattern template) := by
  have hword {c : Char} (hc : Unicode.isWord c = true) : guard.contains c = false := by
    simp only [guards, List.mem_cons, List.not_mem_nil, or_false] at hguard
    rcases hguard with rfl | rfl | rfl <;> simp [CharSet.contains, hc]
  refine ⟨rewrites_of_turning? h hword ?_, hsound, hseamed, hword, ?_⟩
  · intro t ht hnil
    obtain ⟨⟨c, word, hcons, -⟩, -⟩ := Turn.exists_of_isSound (hsound t ht)
    rw [hcons] at hnil
    cases hnil
  · intro c hc
    simp only [guards, List.mem_cons, List.not_mem_nil, or_false] at hguard
    by_cases hat : c = '@'
    · exact Or.inr hat
    · refine Or.inl ?_
      by_cases hc' : Unicode.isWord c = true
      · rw [isNameChar, hc', Bool.true_or]
      · rw [isNameChar, Bool.or_eq_true, beq_iff_eq]
        refine Or.inr ?_
        rcases hguard with rfl | rfl | rfl <;> simp_all [CharSet.contains]

/-- The seams of entries that take turns, none of which is brought about by an earlier entry. -/
def seamsOf? : List (List Char × List Char) → Option (List Seam)
  | [] => some []
  | entry :: entries => do
    let later ← seamsOf? entries
    let (guard, turns) ← turning? entry.1 entry.2
    if guards.contains guard && turns.all fun t =>
        t.isSound && t.isSeamed && later.all fun seam => t.isClear seam then
      return turns.filterMap Turn.seam? ++ later
    else none

/-- Entries that take turns do to a text what they do to its halves. -/
theorem rewriteAll_append_of_seamsOf? {entries : List (List Char × List Char)} {seams : List Seam}
    (h : seamsOf? entries = some seams) {gap left right : List Char}
    (hjoined : Joined seams gap left right) :
    rewriteAll entries (left ++ (gap ++ right)) =
        rewriteAll entries left ++ (gap ++ rewriteAll entries right) ∧
      Joined [] gap (rewriteAll entries left) (rewriteAll entries right) := by
  induction entries generalizing seams left right with
  | nil =>
      obtain rfl := Option.some.inj h
      exact ⟨rfl, hjoined⟩
  | cons entry entries ih =>
      obtain ⟨later, hlater, h⟩ := Option.bind_eq_some_iff.mp h
      obtain ⟨⟨guard, turns⟩, hturning, h⟩ := Option.bind_eq_some_iff.mp h
      obtain ⟨hall, hseams⟩ := Option.ite_none_right_eq_some.mp h
      obtain rfl := Option.some.inj hseams
      simp only [Bool.and_eq_true, List.contains_iff_mem, List.all_eq_true] at hall
      obtain ⟨hguard, hturns⟩ := hall
      have hentry := turns_of_turning? hturning hguard (fun t ht => (hturns t ht).1.1)
        (fun t ht => (hturns t ht).1.2)
      have happend := hjoined.turn_append hentry fun t ht seam hseam =>
        List.mem_append_left later (List.mem_filterMap.mpr ⟨t, ht, hseam⟩)
      have hturned := hjoined.turned hentry (fun seam hseam => List.mem_append_right _ hseam)
        fun t ht => (hturns t ht).2
      have hcons (text : List Char) : rewriteAll (entry :: entries) text =
          rewriteAll entries (replaceWith entry.1 entry.2 text) := rfl
      rw [hcons, hcons, hcons, happend]
      exact ih hlater hturned

end ClassSkeleton.Rules
