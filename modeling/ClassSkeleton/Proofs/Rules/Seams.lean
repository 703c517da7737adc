import ClassSkeleton.Proofs.Pattern.Phrases
import ClassSkeleton.Proofs.Rules.Openers
import Mathlib.Data.List.TakeWhile

namespace ClassSkeleton.Rules

/-!
# Seams

Where a text is cut in two, a rule takes from the first part what it takes from the whole unless a
phrase goes over the cut. A phrase can do so inside a name, or between two of its words where
blanks may stand: at a seam.
-/

open Pattern

/-- Whether a word stands at the end of a text and no word goes on into it. -/
def Ends (word text : List Char) : Prop :=
  ∃ front, text = front ++ word ∧ ∀ c ∈ front.getLast?, Unicode.isWord c = false

/-- Whether a text starts with a word that does not go on. -/
def Starts (word text : List Char) : Prop :=
  ∃ back, text = word ++ back ∧
    ∀ c ∈ word.getLast?, Unicode.isWord c = true → ∀ d ∈ back.head?, Unicode.isWord d = false

-- The characters at an edge are tried, not those of the whole type.
instance (word text : List Char) : Decidable (Ends word text) :=
  decidable_of_iff (word <:+ text ∧ (text.take (text.length - word.length)).getLast?.all
      fun c => !Unicode.isWord c) <| by
    simp only [Option.all_eq_true, Bool.not_eq_true']
    constructor
    · rintro ⟨⟨front, rfl⟩, hedge⟩
      have htake : (front ++ word).take ((front ++ word).length - word.length) = front := by simp
      rw [htake] at hedge
      exact ⟨front, rfl, hedge⟩
    · rintro ⟨front, rfl, hedge⟩
      exact ⟨List.suffix_append front word, by simpa using hedge⟩

instance (word text : List Char) : Decidable (Starts word text) :=
  decidable_of_iff (word <+: text ∧ word.getLast?.all fun c => !Unicode.isWord c ||
      (text.drop word.length).head?.all fun d => !Unicode.isWord d) <| by
    simp only [Option.all_eq_true, Bool.or_eq_true, Bool.not_eq_true', ← imp_iff_not_or,
      ← Bool.not_eq_true]
    constructor
    · rintro ⟨⟨back, rfl⟩, hedge⟩
      rw [List.drop_left] at hedge
      exact ⟨back, rfl, by simpa using hedge⟩
    · rintro ⟨back, rfl, hedge⟩
      rw [List.drop_left]
      exact ⟨List.prefix_append word back, by simpa using hedge⟩

/-- Two words between which blanks may stand. -/
abbrev Seam := List Char × List Char

def Seam.Joins (seam : Seam) (front back : List Char) : Prop :=
  Ends seam.1 front ∧ Starts seam.2 (back.dropWhile Unicode.isBlank)

/-- The word that pieces spell, if they make sure that it does not go on. -/
def spelled? : List Piece → Option (List Char)
  | [.one (.one c)] => if Unicode.isWord c then none else some [c]
  | [.one (.one c), .look (.word .boundary false)] => some [c]
  | .one (.one c) :: pieces => (spelled? pieces).map (c :: ·)
  | _ => none

/-- The word that pieces spell behind blanks. -/
def spelledBehind? : List Piece → Option (List Char)
  | .one .blank :: .many .blank :: pieces => spelled? pieces
  | .many .blank :: pieces => spelled? pieces
  | _ => none

/-- The seams of a phrase whose pieces are left when a word has been taken. Of the signs it is known
that none stands in front of the cut, and it may be known that no name goes over it. -/
def seams? (signs : List Char) (named : Bool) : Option (List Char) → List Piece → Option (List Seam)
  | _, [] => some []
  | _, [.look _] => some []
  | _, .many .blank :: pieces => seams? signs named none pieces
  | _, .many (.one c) :: pieces => if c ∈ signs then seams? signs named none pieces else none
  | _, .one .blank :: pieces => seams? signs named none pieces
  | word, .one (.one c) :: pieces =>
    if c ∈ signs then seams? signs named none pieces
    else
      match pieces with
      | [] => some []
      | [.look (.word .boundary false)] => if named && Unicode.isWord c then some [] else none
      | .one (.one d) :: _ =>
        if named && (isNameChar c && isNameChar d) then
          seams? signs named (word.map (· ++ [c])) pieces
        else none
      | _ => do
        let seams ← seams? signs named none pieces
        return (← word.map (· ++ [c]), ← spelledBehind? pieces) :: seams
  | _, [.one _] => some []
  | _, _ => none

/-- Whether pieces take from the front of a text what they take from the whole. -/
def Agrees (pieces : List Piece) (prev : Option Char) (front back : List Char) : Prop :=
  take? pieces prev (front ++ back) =
    (take? pieces prev front).map fun found => (found.1, found.2 ++ back)

/-- Whether a text ends with no blank and no sign, and with no name that goes on behind the cut. -/
structure Stops (signs : List Char) (named : Bool) (front back : List Char) : Prop where
  last : ∃ c, front.getLast? = some c ∧ Unicode.isBlank c = false ∧ c ∉ signs
  apart : named = true → ∀ c ∈ front.getLast?, isNameChar c = true →
    ∀ d ∈ back.head?, isNameChar d = false

theorem holds_cons (l : Look) (before : List Char) (c : Char) (text other : List Char) :
    l.holds before (c :: text) = l.holds before (c :: other) := by
  cases l <;> rfl

theorem agrees_nil (prev : Option Char) (front back : List Char) : Agrees [] prev front back := rfl

theorem agrees_one {s : CharSet} {pieces : List Piece} {prev : Option Char} {c : Char}
    {front back : List Char} (h : s.contains c = true → Agrees pieces (some c) front back) :
    Agrees (.one s :: pieces) prev (c :: front) back := by
  rw [Agrees, List.cons_append, take?, take?]
  split
  · next hc =>
      have hrest := h hc
      rw [Agrees] at hrest
      rw [hrest, Option.map_map, Option.map_map]
      rfl
  · rfl

theorem takeWhile_append_of_mem {p : Char → Bool} {front : List Char} {c : Char} (hmem : c ∈ front)
    (hc : p c = false) (back : List Char) :
    (front ++ back).takeWhile p = front.takeWhile p ∧
      (front ++ back).dropWhile p = front.dropWhile p ++ back := by
  have hne : front.dropWhile p ≠ [] := by
    intro hnil
    rw [List.dropWhile_eq_nil_iff.mp hnil c hmem] at hc
    cases hc
  constructor
  · rw [List.takeWhile_append, if_neg]
    intro hlength
    have hparts := congrArg List.length (List.takeWhile_append_dropWhile (p := p) (l := front))
    rw [List.length_append] at hparts
    have hpos := List.length_pos_iff.mpr hne
    omega
  · rw [List.dropWhile_append, if_neg]
    simpa using hne

theorem agrees_many {s : CharSet} {pieces : List Piece} {prev : Option Char}
    {front back : List Char} {c : Char} (hmem : c ∈ front) (hc : s.contains c = false)
    (h : Agrees pieces ((front.takeWhile s.contains).getLast?.or prev)
      (front.dropWhile s.contains) back) : Agrees (.many s :: pieces) prev front back := by
  obtain ⟨htake, hdrop⟩ := takeWhile_append_of_mem hmem hc back
  rw [Agrees] at h
  rw [Agrees, take?, take?, htake, hdrop, h, Option.map_map, Option.map_map]
  rfl

theorem agrees_look {l : Look} {prev : Option Char} {c : Char} {front back : List Char} :
    Agrees [.look l] prev (c :: front) back := by
  have hsame := holds_cons l prev.toList c (front ++ back) front
  cases hl : l.holds prev.toList (c :: front) <;> simp [Agrees, take?, hsame, hl]

theorem Starts.cons {word text : List Char} (hword : word ≠ []) (h : Starts word text) (c : Char) :
    Starts (c :: word) (c :: text) := by
  obtain ⟨back, rfl, hedge⟩ := h
  refine ⟨back, rfl, ?_⟩
  rwa [List.getLast?_cons_of_ne_nil hword]

theorem spelled?_ne_nil {pieces : List Piece} (h : spelled? pieces = some []) : False := by
  fun_induction spelled? pieces with
  | case1 | case2 | case3 | case5 => cases h
  | case4 =>
      obtain ⟨word, -, heq⟩ := Option.map_eq_some_iff.mp h
      cases heq

/-- Pieces that spell a word take it where a text starts with it. -/
theorem starts_of_spelled? {pieces : List Piece} {word : List Char}
    (h : spelled? pieces = some word) {prev : Option Char} {text : List Char}
    (htake : (take? pieces prev text).isSome = true) : Starts word text := by
  fun_induction spelled? pieces generalizing word prev text with
  | case1 => cases h
  | case2 c hc =>
      obtain rfl := Option.some.inj h
      rcases text with _ | ⟨d, text⟩
      · cases htake
      · obtain rfl : d = c := by
          by_contra hne
          simp [take?, CharSet.contains, hne] at htake
        exact ⟨text, rfl, by simp [hc]⟩
  | case3 c =>
      obtain rfl := Option.some.inj h
      rcases text with _ | ⟨d, text⟩
      · cases htake
      · obtain rfl : d = c := by
          by_contra hne
          simp [take?, CharSet.contains, hne] at htake
        refine ⟨text, rfl, ?_⟩
        intro e he hword f hf
        obtain rfl : d = e := Option.some.inj he
        obtain ⟨tail, rfl⟩ := List.head?_eq_some_iff.mp hf
        have hedge : ¬ Unicode.isWord d = Unicode.isWord f := by
          simpa [take?, CharSet.contains, Look.holds, Look.isWord] using htake
        rwa [hword, eq_comm, Bool.not_eq_true] at hedge
  | case4 c pieces hone hlook ih =>
      obtain ⟨rest, hrest, rfl⟩ := Option.map_eq_some_iff.mp h
      rcases text with _ | ⟨d, text⟩
      · cases htake
      · obtain rfl : d = c := by
          by_contra hne
          simp [take?, CharSet.contains, hne] at htake
        have hne : rest ≠ [] := by
          rintro rfl
          exact spelled?_ne_nil hrest
        have htail : (take? pieces (some d) text).isSome = true := by
          simpa [take?, CharSet.contains] using htake
        exact (ih hrest htail).cons hne d
  | case5 => cases h

theorem spelledBehind?_ne_nil {pieces : List Piece} {word : List Char}
    (h : spelledBehind? pieces = some word) : word ≠ [] := by
  rintro rfl
  unfold spelledBehind? at h
  split at h
  · exact spelled?_ne_nil h
  · exact spelled?_ne_nil h
  · cases h

theorem starts_of_spelledBehind? {pieces : List Piece} {word : List Char}
    (h : spelledBehind? pieces = some word) {prev : Option Char} {text : List Char}
    (htake : (take? pieces prev text).isSome = true) :
    Starts word (text.dropWhile Unicode.isBlank) := by
  have hmany {pieces : List Piece} (h : spelled? pieces = some word) {prev : Option Char}
      {text : List Char} (htake : (take? (.many .blank :: pieces) prev text).isSome = true) :
      Starts word (text.dropWhile Unicode.isBlank) := by
    rw [take?, Option.isSome_map] at htake
    exact starts_of_spelled? h htake
  unfold spelledBehind? at h
  split at h
  · next pieces =>
      rcases text with _ | ⟨c, text⟩
      · cases htake
      · rw [take?] at htake
        split at htake
        · next hc =>
            have hblank : Unicode.isBlank c = true := hc
            rw [Option.isSome_map] at htake
            rw [List.dropWhile_cons_of_pos hblank]
            exact hmany h htake
        · cases htake
  · exact hmany h htake
  · cases h

theorem any_isWord_of_not_isNameChar {c : Option Char} (h : ∀ d ∈ c, isNameChar d = false) :
    c.any Unicode.isWord = false := by
  cases c with
  | none => rfl
  | some d => exact (Bool.or_eq_false_iff.mp (h d rfl)).1

theorem not_starts_nil {word : List Char} (h : word ≠ []) : ¬ Starts word [] := by
  rintro ⟨back, hparts, -⟩
  exact h (List.append_eq_nil_iff.mp hparts.symm).1

theorem getLast?_dropWhile {p : Char → Bool} {text : List Char} {c : Char}
    (h : text.getLast? = some c) (hc : p c = false) : (text.dropWhile p).getLast? = some c := by
  have hne : text.dropWhile p ≠ [] := by
    intro hnil
    have hall := List.dropWhile_eq_nil_iff.mp hnil c (List.mem_of_getLast? h)
    rw [hc] at hall
    cases hall
  rw [← h, ← List.getLast?_append_of_ne_nil (text.takeWhile p) hne,
    List.takeWhile_append_dropWhile]

/-- Whether what is left of a text stands behind a word of it, into which no word goes on. -/
def Tracks (text : List Char) (word : Option (List Char)) (rest : List Char) : Prop :=
  ∃ passed, text = passed ++ (word.getD [] ++ rest) ∧
    (word.isSome = true → ∀ c ∈ passed.getLast?, Unicode.isWord c = false)

namespace Tracks

variable {text rest more : List Char} {word : Option (List Char)} {c : Char}

theorem isSuffix (h : Tracks text word rest) : rest <:+ text := by
  obtain ⟨passed, rfl, -⟩ := h
  rw [← List.append_assoc]
  exact List.suffix_append _ rest

theorem of_isSuffix (h : Tracks text word rest) (hmore : more <:+ rest) :
    Tracks text none more := by
  obtain ⟨passed, rfl⟩ := hmore.trans h.isSuffix
  exact ⟨passed, rfl, nofun⟩

theorem step (h : Tracks text word (c :: rest)) :
    Tracks text (word.map fun begun => begun ++ [c]) rest := by
  cases word with
  | none => exact h.of_isSuffix (List.suffix_cons c rest)
  | some begun =>
      obtain ⟨passed, rfl, hedge⟩ := h
      exact ⟨passed, by simp, fun _ => hedge rfl⟩

theorem ends {begun : List Char} (h : Tracks text (some begun) []) : Ends begun text := by
  obtain ⟨passed, rfl, hedge⟩ := h
  exact ⟨passed, by simp, hedge rfl⟩

theorem getLast?_eq (h : Tracks text word rest) (hrest : rest ≠ []) :
    rest.getLast? = text.getLast? := by
  obtain ⟨passed, rfl⟩ := h.isSuffix
  rw [List.getLast?_append_of_ne_nil _ hrest]

end Tracks

section Cut

variable {signs front back : List Char} {named : Bool} {seams : List Seam}

section Passing

variable {s : CharSet} {pieces : List Piece} {rest : List Char} {z : Char}

/-- A set that the last character is not in is not gone through to the end of a text. -/
theorem agrees_one_of_last (hlast : rest.getLast? = some z) (hz : s.contains z = false)
    (h : ∀ c more, rest = c :: more → more ≠ [] → Agrees pieces (some c) more back)
    (prev : Option Char) : Agrees (.one s :: pieces) prev rest back := by
  obtain ⟨c, more, rfl⟩ := List.exists_cons_of_ne_nil (l := rest) (by rintro rfl; cases hlast)
  refine agrees_one fun hc => h c more rfl ?_
  rintro rfl
  obtain rfl : c = z := Option.some.inj hlast
  rw [hz] at hc
  cases hc

theorem agrees_many_of_last (hlast : rest.getLast? = some z) (hz : s.contains z = false)
    (h : ∀ more, more <:+ rest → more ≠ [] → ∀ prev, Agrees pieces prev more back)
    (prev : Option Char) : Agrees (.many s :: pieces) prev rest back := by
  have hnext := List.mem_of_getLast? (getLast?_dropWhile (p := s.contains) hlast hz)
  exact agrees_many (List.mem_of_getLast? hlast) hz
    (h _ (List.dropWhile_suffix _) (List.ne_nil_of_mem hnext) _)

/-- One character is taken in front of the cut, or it is the last one there. -/
theorem agrees_char {c : Char} (hrest : rest ≠ [])
    (hend : rest = [c] → Agrees pieces (some c) [] back)
    (hmore : ∀ more, rest = c :: more → more ≠ [] → Agrees pieces (some c) more back)
    (prev : Option Char) : Agrees (.one (.one c) :: pieces) prev rest back := by
  obtain ⟨d, more, rfl⟩ := List.exists_cons_of_ne_nil hrest
  refine agrees_one fun hd => ?_
  obtain rfl : d = c := by simpa [CharSet.contains] using hd
  by_cases hempty : more = []
  · subst hempty
    exact hend rfl
  · exact hmore more rfl hempty

end Passing

/-- At the end of a word the cut is its end too, if no name goes over it. -/
theorem agrees_boundary {c : Char} (hback : ∀ d ∈ back.head?, isNameChar d = false)
    (hword : Unicode.isWord c = true) :
    Agrees [.look (.word .boundary false)] (some c) [] back := by
  have hedge : back.head?.any (Look.isWord false) = false := any_isWord_of_not_isNameChar hback
  simp [Agrees, take?, Look.holds, hedge, Look.isWord, hword]

/-- A name does not go on behind the cut. -/
theorem agrees_name {d : Char} {pieces : List Piece} {prev : Option Char}
    (hback : ∀ e ∈ back.head?, isNameChar e = false) (hd : isNameChar d = true) :
    Agrees (.one (.one d) :: pieces) prev [] back := by
  rcases back with _ | ⟨f, back⟩
  · rfl
  · have hne : f ≠ d := by
      rintro rfl
      exact absurd hd (by simp [hback f rfl])
    simp [Agrees, take?, CharSet.contains, hne]

/-- A word that does not stand behind the cut is not taken there. -/
theorem agrees_spelledBehind {pieces : List Piece} {word : List Char}
    (h : spelledBehind? pieces = some word)
    (hnot : ¬ Starts word (back.dropWhile Unicode.isBlank)) (prev : Option Char) :
    Agrees pieces prev [] back := by
  have htaken (text : List Char) (hnot : ¬ Starts word (text.dropWhile Unicode.isBlank)) :
      take? pieces prev text = none := by
    by_contra hsome
    exact hnot (starts_of_spelledBehind? h (Option.isSome_iff_ne_none.mpr hsome))
  rw [Agrees, List.nil_append, htaken back hnot,
    htaken [] (not_starts_nil (spelledBehind?_ne_nil h))]
  rfl

/-- Pieces do not go over a cut at which none of their seams joins. -/
theorem agrees_of_seams? {pieces : List Piece} {word : Option (List Char)}
    (h : seams? signs named word pieces = some seams) (hstops : Stops signs named front back)
    (hseams : ∀ seam ∈ seams, ¬ seam.Joins front back) {rest : List Char}
    (htracks : Tracks front word rest) (hrest : rest ≠ []) (prev : Option Char) :
    Agrees pieces prev rest back := by
  obtain ⟨z, hz, hblank, hsign⟩ := hstops.last
  have hlast := (htracks.getLast?_eq hrest).trans hz
  have hspace : CharSet.blank.contains z = false := hblank
  have hsigns {c : Char} (hc : c ∈ signs) : (CharSet.one c).contains z = false :=
    beq_eq_false_iff_ne.mpr fun heq => hsign (heq ▸ hc)
  fun_induction seams? signs named word pieces generalizing seams rest prev with
  | case1 => exact agrees_nil prev rest back
  | case2 word l =>
      obtain ⟨c, rest, rfl⟩ := List.exists_cons_of_ne_nil hrest
      exact agrees_look
  | case3 word pieces ih =>
      refine agrees_many_of_last hlast hspace (fun more hmore hne prev => ?_) prev
      have hnext := htracks.of_isSuffix hmore
      exact ih h hseams hnext hne prev ((hnext.getLast?_eq hne).trans hz)
  | case4 word c pieces hc ih =>
      refine agrees_many_of_last hlast (hsigns hc) (fun more hmore hne prev => ?_) prev
      have hnext := htracks.of_isSuffix hmore
      exact ih h hseams hnext hne prev ((hnext.getLast?_eq hne).trans hz)
  | case5 | case10 | case12 | case15 => cases h
  | case6 word pieces ih =>
      refine agrees_one_of_last hlast hspace ?_ prev
      rintro c more rfl hne
      have hnext := htracks.of_isSuffix (List.suffix_cons c more)
      exact ih h hseams hnext hne _ ((hnext.getLast?_eq hne).trans hz)
  | case7 word c pieces hc ih =>
      refine agrees_one_of_last hlast (hsigns hc) ?_ prev
      rintro c more rfl hne
      have hnext := htracks.of_isSuffix (List.suffix_cons c more)
      exact ih h hseams hnext hne _ ((hnext.getLast?_eq hne).trans hz)
  | case8 word c _ =>
      obtain ⟨d, rest, rfl⟩ := List.exists_cons_of_ne_nil hrest
      exact agrees_one fun _ => agrees_nil _ rest back
  | case9 word c _ hboth =>
      obtain ⟨hnamed, hword⟩ := (Bool.and_eq_true _ _).mp hboth
      refine agrees_char hrest ?_ ?_ prev
      · rintro rfl
        obtain rfl := Option.some.inj hlast
        exact agrees_boundary (hstops.apart hnamed _ hz (by simp [isNameChar, hword])) hword
      · rintro more - hne
        obtain ⟨e, more, rfl⟩ := List.exists_cons_of_ne_nil hne
        exact agrees_look
  | case11 word c _ d pieces hnames ih =>
      obtain ⟨hnamed, hnames⟩ := (Bool.and_eq_true _ _).mp hnames
      obtain ⟨hc, hd⟩ := (Bool.and_eq_true _ _).mp hnames
      refine agrees_char hrest ?_ ?_ prev
      · rintro rfl
        obtain rfl := Option.some.inj hlast
        exact agrees_name (hstops.apart hnamed _ hz hc) hd
      · rintro more rfl hne
        exact ih h hseams htracks.step hne _ ((htracks.step.getLast?_eq hne).trans hz)
  | case13 word c pieces _ _ _ _ ih =>
      obtain ⟨others, hothers, h⟩ := Option.bind_eq_some_iff.mp h
      obtain ⟨first, hfirst, h⟩ := Option.bind_eq_some_iff.mp h
      obtain ⟨second, hsecond, h⟩ := Option.bind_eq_some_iff.mp h
      obtain rfl := Option.some.inj h
      obtain ⟨hjoins, hapart⟩ := List.forall_mem_cons.mp hseams
      refine agrees_char hrest ?_ ?_ prev
      · rintro rfl
        obtain ⟨begun, rfl, rfl⟩ := Option.map_eq_some_iff.mp hfirst
        exact agrees_spelledBehind hsecond (fun hstarts => hjoins ⟨htracks.step.ends, hstarts⟩) _
      · rintro more rfl hne
        have hnext := htracks.of_isSuffix (List.suffix_cons c more)
        exact ih hothers hapart hnext hne _ ((hnext.getLast?_eq hne).trans hz)
  | case14 word s =>
      obtain ⟨d, rest, rfl⟩ := List.exists_cons_of_ne_nil hrest
      exact agrees_one fun _ => agrees_nil _ rest back

end Cut

end ClassSkeleton.Rules
