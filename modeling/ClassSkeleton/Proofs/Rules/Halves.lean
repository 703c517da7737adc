import ClassSkeleton.Proofs.Rules.Blanks
import ClassSkeleton.Proofs.Rules.Marks

namespace ClassSkeleton.Rules

/-!
# The halves of a text

A text is cut in two, and the rules for marks and blanks go over the whole and over both halves.
What they leave of the whole is what they leave of the halves, but for blanks at the cut.
-/

open Pattern Text

namespace Sweeps

variable {sign : Char} {named : Bool} {at? : Spotter} {sweep : List Char → List Char}
  {front back : List Char}

theorem append_of_stops (h : Sweeps sign named at? sweep)
    (hstops : front ≠ [] → Stops [sign] named front back) :
    sweep (front ++ back) = sweep front ++ sweep back := by
  by_cases hnil : front = []
  · rw [hnil, h.nil]
    rfl
  · exact h.append (hstops hnil)

/-- A text in which no sign is taken at the beginning is left with what it begins with. -/
theorem head?_trimStart (h : Sweeps sign named at? sweep)
    (hhead : ∀ c ∈ back.head?, Unicode.isBlank c = false) (hmissed : at? none back = none) :
    (trimStart (sweep back)).head? = back.head? := by
  cases back with
  | nil => rw [h.nil, trimStart, List.dropWhile_nil]
  | cons c rest =>
      have hc : ¬ Unicode.isBlank c = true := by
        rw [hhead c rfl]
        exact Bool.false_ne_true
      rw [h.keep hmissed, trimStart, List.dropWhile_cons_of_neg hc, List.head?_cons,
        List.head?_cons]

/-- No sign is taken where a text begins that is left with something and begins with no mark. -/
theorem eq_none_of_ne_nil (h : Sweeps sign named at? sweep)
    (hsign : sign = '*' ∨ ∀ text, (at? none text).isSome = true → sweep text = [])
    (hhead : ∀ c ∈ back.head?, Unicode.isBlank c = false) (hmark : back.head? ≠ some '*')
    (hne : sweep back ≠ []) : at? none back = none := by
  rcases hsign with rfl | hempty
  · cases back with
    | nil => exact absurd h.nil hne
    | cons c rest => exact h.led.other rest (hhead c rfl) fun heq => hmark (congrArg some heq)
  · by_contra hsome
    exact hne (hempty back (Option.isSome_iff_ne_none.mpr hsome))

end Sweeps

/-- A text that is cut in two, and its halves. They begin and end with blanks of their own at the
cut; those of the whole are all gone only if the cut is not to be kept. -/
structure Halves (kept : Prop) (gap front back whole left right : List Char) : Prop where
  whole_eq : whole = front ++ (gap ++ back)
  left_eq : ∃ blanks, (∀ c ∈ blanks, Unicode.isBlank c = true) ∧ left = front ++ blanks
  right_eq : ∃ blanks, (∀ c ∈ blanks, Unicode.isBlank c = true) ∧ right = blanks ++ back
  blank : ∀ c ∈ gap, Unicode.isBlank c = true
  last : ∀ c ∈ front.getLast?, Unicode.isBlank c = false
  head : ∀ c ∈ back.head?, Unicode.isBlank c = false
  keeps : kept → back ≠ [] → gap ≠ [] ∧ back.head? ≠ some '*'

namespace Halves

variable {kept : Prop} {gap front back whole left right : List Char}

/-- The cut of a text falls into the blanks between its halves. -/
theorem of_cut (left right : List Char) : ∃ gap,
    Halves ((left ≠ trimEnd left ∨ right ≠ trimStart right) ∧ (trimStart right).head? ≠ some '*')
      gap (trimEnd left) (trimStart right) (left ++ right) left right ∧
        (gap = [] → left = trimEnd left ∧ right = trimStart right) := by
  obtain ⟨ending, hending, hleft⟩ := exists_trimEnd left
  obtain ⟨start, hstart, hright⟩ := exists_trimStart right
  refine ⟨ending ++ start,
    ⟨?_, ⟨ending, hending, hleft⟩, ⟨start, hstart, hright⟩, ?_, ?_, ?_, ?_⟩, ?_⟩
  · rw [List.append_assoc, ← hright, ← List.append_assoc, ← hleft]
  · exact List.forall_mem_append.mpr ⟨hending, hstart⟩
  · exact fun c hc => not_isBlank_of_mem_getLast?_trimEnd hc
  · exact fun c hc => not_isBlank_of_mem_head?_trimStart hc
  · rintro ⟨hblank, hmark⟩ -
    refine ⟨?_, hmark⟩
    intro hnil
    obtain ⟨rfl, rfl⟩ := List.append_eq_nil_iff.mp hnil
    rcases hblank with hblank | hblank
    · exact hblank (by simpa using hleft)
    · exact hblank hright
  · intro hnil
    obtain ⟨rfl, rfl⟩ := List.append_eq_nil_iff.mp hnil
    exact ⟨by simpa using hleft, hright⟩

section Sweep

variable {sign : Char} {named : Bool} {at? : Spotter} {sweep : List Char → List Char}

/-- What a sign is dropped from is what it is dropped from in the halves. -/
theorem drop_signs (h : Halves kept gap front back whole left right)
    (hsweep : Sweeps sign named at? sweep)
    (hstops : front ≠ [] → Stops [sign] named front (gap ++ back))
    (hsign : sign = '*' ∨ ∀ text, (at? none text).isSome = true → sweep text = []) :
    ∃ more, Halves kept more (trimEnd (sweep front)) (trimStart (sweep back))
        (sweep whole) (sweep left) (sweep right) ∧
      (more = [] → gap = [] ∨ (at? none back).isSome = true) := by
  obtain ⟨ending, hending, hleft⟩ := h.left_eq
  obtain ⟨start, hstart, hright⟩ := h.right_eq
  obtain ⟨before, hbefore, hfront⟩ := exists_trimEnd (sweep front)
  obtain ⟨behind, hbehind, hback⟩ := exists_trimStart (sweep back)
  have hkept (blanks : List Char) (hblanks : ∀ c ∈ blanks, Unicode.isBlank c = true) :
      ∀ c ∈ if (at? none back).isSome then [] else blanks, Unicode.isBlank c = true := by
    split
    · exact nofun
    · exact hblanks
  have hcut : front ≠ [] → Stops [sign] named front ending := fun hnil =>
    ⟨(hstops hnil).last, fun _ _ _ _ d hd =>
      not_isNameChar_of_isBlank (hending d (List.mem_of_head? hd))⟩
  refine ⟨before ++ ((if (at? none back).isSome then [] else gap) ++ behind), ⟨?_, ?_, ?_, ?_, ?_, ?_,
    ?_⟩, ?_⟩
  · rw [h.whole_eq, hsweep.append_of_stops hstops, hsweep.blank_append h.blank]
    conv_lhs => rw [hfront, hback]
    simp
  · refine ⟨before ++ ending, List.forall_mem_append.mpr ⟨hbefore, hending⟩, ?_⟩
    rw [hleft, hsweep.append_of_stops hcut, hsweep.blanks hending]
    conv_lhs => rw [hfront]
    simp
  · refine ⟨(if (at? none back).isSome then [] else start) ++ behind,
      List.forall_mem_append.mpr ⟨hkept start hstart, hbehind⟩, ?_⟩
    rw [hright, hsweep.blank_append hstart]
    conv_lhs => rw [hback]
    simp
  · rw [List.forall_mem_append, List.forall_mem_append]
    exact ⟨hbefore, hkept gap h.blank, hbehind⟩
  · exact fun c hc => not_isBlank_of_mem_getLast?_trimEnd hc
  · exact fun c hc => not_isBlank_of_mem_head?_trimStart hc
  · intro hkeeps hne
    have hleave : sweep back ≠ [] := by
      intro hnil
      rw [hnil] at hne
      exact hne rfl
    have hnil : back ≠ [] := by
      rintro rfl
      exact hleave hsweep.nil
    obtain ⟨hgap, hmark⟩ := h.keeps hkeeps hnil
    have hmissed := hsweep.eq_none_of_ne_nil hsign h.head hmark hleave
    rw [hsweep.head?_trimStart h.head hmissed, hmissed]
    exact ⟨by simp [hgap], hmark⟩
  · intro hnil
    obtain ⟨-, hrest⟩ := List.append_eq_nil_iff.mp hnil
    obtain ⟨hmiddle, -⟩ := List.append_eq_nil_iff.mp hrest
    cases hsome : (at? none back).isSome with
    | true => exact Or.inr rfl
    | false =>
        rw [hsome] at hmiddle
        exact Or.inl hmiddle

end Sweep

/-- What trimming and folding leave of the whole is what they leave of the halves. -/
theorem fold_trim (h : Halves kept gap front back whole left right) :
    ∃ more, (∀ c ∈ more, Unicode.isBlank c = true) ∧
      fold (trim whole) = fold (trim left) ++ (more ++ fold (trim right)) ∧
      (fold (trim left) = [] ∨ fold (trim right) = [] → more = []) ∧
      (kept → fold (trim left) ≠ [] → fold (trim right) ≠ [] → more ≠ []) := by
  obtain ⟨ending, hending, rfl⟩ := h.left_eq
  obtain ⟨start, hstart, rfl⟩ := h.right_eq
  obtain rfl := h.whole_eq
  by_cases hfront : front = []
  · subst hfront
    have hnil : trim ([] ++ ending) = [] := (trim_eq_nil_iff ending).mpr hending
    refine ⟨[], by simp, ?_, fun _ => rfl, fun _ hne => ?_⟩
    · rw [hnil, List.nil_append, trim_blanks_append h.blank, trim_blanks_append hstart, fold_nil,
        List.nil_append, List.nil_append]
    · rw [hnil, fold_nil] at hne
      exact absurd rfl hne
  · by_cases hback : back = []
    · subst hback
      have hnil : trim (start ++ []) = [] := by
        rw [List.append_nil]
        exact (trim_eq_nil_iff start).mpr hstart
      refine ⟨[], by simp, ?_, fun _ => rfl, fun _ _ hne => ?_⟩
      · rw [hnil, List.append_nil, trim_append_blanks h.blank, trim_append_blanks hending, fold_nil,
          List.append_nil, List.append_nil]
      · rw [hnil, fold_nil] at hne
        exact absurd rfl hne
    · -- Both halves have something to keep, so the blanks at the cut stand within a text.
      have htidy := tidy_trim_of_mem (List.getLast_mem hfront)
        (h.last _ (List.getLast?_eq_some_getLast hfront))
      have hbehind := tidy_trim_of_mem (List.head_mem hback)
        (h.head _ (List.head?_eq_some_head hback))
      obtain ⟨more, hmore, hkept, heq⟩ := exists_fold_append h.blank hbehind.front
      refine ⟨more, hmore, ?_, ?_, fun hk _ _ => hkept (h.keeps hk hback).1⟩
      · rw [trim_append h.last h.head htidy hbehind, trim_append_blanks hending,
          trim_blanks_append hstart, fold_append htidy.back, heq]
      · rw [trim_append_blanks hending, trim_blanks_append hstart]
        rintro (hnil | hnil)
        · exact absurd hnil (tidy_fold htidy).nonempty
        · exact absurd hnil (tidy_fold hbehind).nonempty

end Halves

namespace Standard

/-- What is left of a text when marks and needless blanks are dropped. -/
@[irreducible] def bare (text : List Char) : List Char :=
  replaceAllWith (typeReferences ++ spellings.take 4) text

theorem bare_eq (text : List Char) :
    bare text = fold (trim (unpointed (unpinned (unreferenced text)))) := by
  rw [bare, replaceAllWith, typeReferences, spellings, fold, ← replaceWith_trimming, unpointed,
    unpinned, unreferenced]
  simp only [List.take_succ_cons, List.take_zero, List.cons_append, List.nil_append,
    List.foldl_cons, List.foldl_nil]

theorem tidy_bare {text : List Char} (h : bare text ≠ []) : Tidy (bare text) := by
  rw [bare_eq] at h ⊢
  refine tidy_fold (tidy_trim fun hnil => h ?_)
  rw [hnil, fold_nil]

/-- Whether a text ends with no mark, also when the marks of pointers that are constant are
dropped. -/
structure Unmarked (text : List Char) : Prop where
  last : ∀ c ∈ (trimEnd text).getLast?, c ≠ '*' ∧ c ≠ '&'
  unpinned : ∀ c ∈ (trimEnd (unpinned text)).getLast?, c ≠ '*'

instance (text : List Char) : Decidable (Unmarked text) :=
  decidable_of_iff ((trimEnd text).getLast? ≠ some '*' ∧ (trimEnd text).getLast? ≠ some '&' ∧
      (trimEnd (unpinned text)).getLast? ≠ some '*') <| by
    constructor
    · rintro ⟨hstar, hand, hpinned⟩
      refine ⟨fun c hc => ⟨?_, ?_⟩, ?_⟩
      · rintro rfl
        exact hstar hc
      · rintro rfl
        exact hand hc
      · rintro c hc rfl
        exact hpinned hc
    · rintro ⟨hlast, hpinned⟩
      exact ⟨fun h => (hlast _ h).1 rfl, fun h => (hlast _ h).2 rfl, fun h => hpinned _ h rfl⟩

section Blank

variable {text : List Char} (h : ∀ c ∈ text, Unicode.isBlank c = true)
include h

theorem bare_of_blank : bare text = [] := by
  obtain ⟨at₁, hpinned⟩ := exists_sweeps_unpinned
  obtain ⟨at₂, hpointed⟩ := exists_sweeps_unpointed
  rw [bare_eq, sweeps_unreferenced.blanks h, hpinned.blanks h, hpointed.blanks h,
    (trim_eq_nil_iff text).mpr h, fold_nil]

theorem unmarked_of_blank : Unmarked text := by
  have hnil : trimEnd text = [] := trimEnd_append_blanks h []
  obtain ⟨at₁, hpinned⟩ := exists_sweeps_unpinned
  constructor
  · rw [hnil]
    nofun
  · rw [hpinned.blanks h, hnil]
    nofun

end Blank

/-- Whether blanks at the cut of a text are kept: no mark behind them takes them. -/
def IsKept (left right : List Char) : Prop :=
  (left ≠ trimEnd left ∨ right ≠ trimStart right) ∧ (trimStart right).head? ≠ some '*'

instance (left right : List Char) : Decidable (IsKept left right) :=
  inferInstanceAs (Decidable (_ ∧ _))

theorem trimEnd_trimEnd (text : List Char) : trimEnd (trimEnd text) = trimEnd text := by
  obtain ⟨blanks, hblanks, htext⟩ := exists_trimEnd text
  conv_rhs => rw [htext]
  exact (trimEnd_append_blanks hblanks _).symm

theorem Unmarked.stops {text rest : List Char} (h : Unmarked text) {sign : Char}
    (hsign : sign = '*' ∨ sign = '&') (hne : trimEnd text ≠ [])
    (hrest : ∀ c ∈ (trimEnd text).getLast?, isNameChar c = true →
      ∀ d ∈ rest.head?, isNameChar d = false) : Stops [sign] true (trimEnd text) rest := by
  have hlast := List.getLast?_eq_some_getLast hne
  obtain ⟨hstar, hand⟩ := h.last _ hlast
  refine ⟨⟨_, hlast, not_isBlank_of_mem_getLast?_trimEnd hlast, ?_⟩, fun _ => hrest⟩
  rw [List.mem_singleton]
  rcases hsign with rfl | rfl
  · exact hstar
  · exact hand

theorem head?_blank_append {gap rest : List Char} (hgap : ∀ c ∈ gap, Unicode.isBlank c = true)
    (hrest : gap = [] → ∀ d ∈ rest.head?, isNameChar d = false) :
    ∀ d ∈ (gap ++ rest).head?, isNameChar d = false := by
  intro d hd
  rcases gap with _ | ⟨b, gap⟩
  · exact hrest rfl d hd
  · rw [List.cons_append, List.head?_cons] at hd
    obtain rfl := Option.some.inj hd
    exact not_isNameChar_of_isBlank (hgap b List.mem_cons_self)

section Cut

variable {left right : List Char} (hleft : Unmarked left)
  (hnames : ∀ c ∈ left.getLast?, isNameChar c = true → ∀ d ∈ right.head?, isNameChar d = false)
include hleft hnames

/-- A name still ends at the cut when the marks of a reference have been dropped. -/
theorem exists_halves_unreferenced : ∃ gap,
    Halves (IsKept left right) gap (trimEnd left) (trimStart (unreferenced (trimStart right)))
      (unreferenced (left ++ right)) (unreferenced left) (unreferenced right) ∧
    ∀ c ∈ (trimEnd left).getLast?, isNameChar c = true →
      ∀ d ∈ (gap ++ trimStart (unreferenced (trimStart right))).head?, isNameChar d = false := by
  obtain ⟨gap, hcut, hgap⟩ := Halves.of_cut left right
  have hbefore : ∀ c ∈ (trimEnd left).getLast?, isNameChar c = true → gap = [] →
      ∀ d ∈ (trimStart right).head?, isNameChar d = false := by
    intro c hc hname hnil
    obtain ⟨hl, hr⟩ := hgap hnil
    rw [← hl] at hc
    rw [← hr]
    exact hnames c hc hname
  have hself : unreferenced (trimEnd left) = trimEnd left :=
    unreferenced_eq_self fun c hc => ⟨hcut.last c hc, (hleft.last c hc).2⟩
  obtain ⟨more, hhalves, hmore⟩ := hcut.drop_signs sweeps_unreferenced
    (fun hne => hleft.stops (Or.inr rfl) hne fun c hc hname =>
      head?_blank_append hcut.blank (hbefore c hc hname))
    (Or.inr fun _ => unreferenced_eq_nil)
  rw [hself, trimEnd_trimEnd] at hhalves
  refine ⟨more, hhalves, fun c hc hname => head?_blank_append hhalves.blank fun hnil => ?_⟩
  intro d hd
  cases hspot : spotAny referencing none (trimStart right) with
  | some found =>
      rw [unreferenced_eq_nil (by rw [hspot]; rfl)] at hd
      cases hd
  | none =>
      have hgap' : gap = [] := (hmore hnil).resolve_right (by rw [hspot]; exact Bool.false_ne_true)
      rw [sweeps_unreferenced.head?_trimStart hcut.head hspot] at hd
      exact hbefore c hc hname hgap' d hd

/-- Where no mark stands in front of the cut and no name goes over it, the whole is left with what
the halves are left with, and with blanks in between. -/
theorem exists_bare_append : ∃ gap, (∀ c ∈ gap, Unicode.isBlank c = true) ∧
    bare (left ++ right) = bare left ++ (gap ++ bare right) ∧
    (bare left = [] ∨ bare right = [] → gap = []) ∧
    (IsKept left right → bare left ≠ [] → bare right ≠ [] → gap ≠ []) := by
  obtain ⟨at₁, hpinned⟩ := exists_sweeps_unpinned
  obtain ⟨at₂, hpointed⟩ := exists_sweeps_unpointed
  obtain ⟨gap₁, hcut₁, hbefore⟩ := exists_halves_unreferenced hleft hnames
  obtain ⟨gap₂, hcut₂, -⟩ := hcut₁.drop_signs hpinned
    (fun hne => hleft.stops (Or.inl rfl) hne hbefore) (Or.inl rfl)
  have hmarks : trimEnd (unpinned left) = trimEnd (unpinned (trimEnd left)) := by
    obtain ⟨blanks, hblanks, htext⟩ := exists_trimEnd left
    by_cases hnil : trimEnd left = []
    · rw [hnil, List.nil_append] at htext
      rw [hnil, hpinned.nil, htext, hpinned.blanks hblanks]
      exact trimEnd_append_blanks hblanks []
    · have hstops : Stops ['*'] true (trimEnd left) blanks :=
        hleft.stops (Or.inl rfl) hnil fun _ _ _ d hd =>
          not_isNameChar_of_isBlank (hblanks d (List.mem_of_head? hd))
      have happend := hpinned.append hstops
      rw [← htext, hpinned.blanks hblanks] at happend
      rw [happend, trimEnd_append_blanks hblanks]
  obtain ⟨gap₃, hcut₃, -⟩ := hcut₂.drop_signs hpointed (fun hne => by
    have hlast := List.getLast?_eq_some_getLast hne
    have hmark := hleft.unpinned _ ((congrArg List.getLast? hmarks).trans hlast)
    refine ⟨⟨_, hlast, hcut₂.last _ hlast, ?_⟩, nofun⟩
    rwa [List.mem_singleton]) (Or.inl rfl)
  obtain ⟨more, hmore, heq, hnil, hkept⟩ := hcut₃.fold_trim
  rw [← bare_eq, ← bare_eq, ← bare_eq] at heq
  rw [← bare_eq, ← bare_eq] at hnil hkept
  exact ⟨more, hmore, heq, hnil, hkept⟩

end Cut

end Standard

end ClassSkeleton.Rules
