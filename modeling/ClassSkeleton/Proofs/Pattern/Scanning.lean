import ClassSkeleton.Pattern.Replace
import Mathlib.Data.List.Basic

namespace ClassSkeleton.Pattern

/-!
# Rewriting from left to right

Whether a rule takes something at a place may depend on the one character in front of it and on
all the text behind. The places are tried from left to right, and what has been taken is passed
over.
-/

section Replacing

variable (find : Finder) (expand : Match → List Char)

theorem replaceFrom_length_append (before : List Char) (adjoins : Bool)
    (text rest : List Char) : replaceFrom find expand before text.length adjoins (text ++ rest) =
      replaceFrom find expand (text.reverse ++ before) 0 adjoins rest := by
  induction text generalizing before with
  | nil => rfl
  | cons c text ih =>
      rw [List.cons_append, List.length_cons, replaceFrom, ih, List.reverse_cons,
        List.append_assoc]
      rfl

variable {find} {before : List Char}

/-- Where nothing is found, a character is kept. -/
theorem replaceFrom_of_eq_none {c : Char} {rest : List Char} (h : find before (c :: rest) = none)
    (adjoins : Bool) : replaceFrom find expand before 0 adjoins (c :: rest) =
      c :: replaceFrom find expand (c :: before) 0 false rest := by
  rw [replaceFrom, h]

/-- An empty match is put in front of the character that is kept, unless a match ends there. -/
theorem replaceFrom_of_empty {c : Char} {rest : List Char} {m : Match}
    (h : find before (c :: rest) = some m) (hempty : m.length = 0) (adjoins : Bool) :
    replaceFrom find expand before 0 adjoins (c :: rest) =
      (if adjoins then [] else expand m) ++ c :: replaceFrom find expand (c :: before) 0 false rest := by
  rw [replaceFrom, h]
  simp only [hempty]

/-- The replacement goes on behind what has been found. -/
theorem replaceFrom_of_eq_some {taken rest : List Char} {m : Match} (hne : taken ≠ [])
    (h : find before (taken ++ rest) = some m) (hlength : m.length = taken.length)
    (adjoins : Bool) : replaceFrom find expand before 0 adjoins (taken ++ rest) =
      expand m ++ replaceFrom find expand (taken.reverse ++ before) 0 true rest := by
  obtain ⟨c, taken, rfl⟩ := List.exists_cons_of_ne_nil hne
  have hpassed := replaceFrom_length_append find expand (c :: before) true taken rest
  rw [List.cons_append] at h ⊢
  rw [replaceFrom, h]
  simp [hlength, hpassed]

end Replacing

/-- What is taken at a place and what is put there, given the character in front. -/
abbrev Spotter := Option Char → List Char → Option (List Char × List Char)

/-- Whether something is taken wherever anything is found. -/
def Spotter.Lawful (at? : Spotter) : Prop :=
  ∀ {prev text taken out}, at? prev text = some (taken, out) → taken ≠ [] ∧ taken <+: text

theorem Spotter.Lawful.nil {at? : Spotter} (h : at?.Lawful) (prev : Option Char) :
    at? prev [] = none := by
  rw [Option.eq_none_iff_forall_ne_some]
  rintro ⟨taken, out⟩ hfound
  obtain ⟨hne, hstarts⟩ := h hfound
  exact hne (List.prefix_nil.mp hstarts)

inductive Rewrites (at? : Spotter) : Option Char → List Char → List Char → Prop
  | nil {prev : Option Char} : Rewrites at? prev [] []
  | keep {prev : Option Char} {c : Char} {rest new : List Char}
      (missed : at? prev (c :: rest) = none) (tail : Rewrites at? (some c) rest new) :
      Rewrites at? prev (c :: rest) (c :: new)
  | swap {prev : Option Char} {taken out rest new : List Char} (nonempty : taken ≠ [])
      (found : at? prev (taken ++ rest) = some (taken, out))
      (tail : Rewrites at? taken.getLast? rest new) : Rewrites at? prev (taken ++ rest) (out ++ new)

theorem getLast?_cons_or (c : Char) (text : List Char) (prev : Option Char) :
    (c :: text).getLast?.or prev = text.getLast?.or (some c) := by
  cases h : text.getLast? with
  | none => simp [List.getLast?_eq_none_iff.mp h]
  | some d => simp [List.getLast?_cons, h]

namespace Rewrites

variable {at? : Spotter} {prev : Option Char} {text new other : List Char}

theorem eq (h : Rewrites at? prev text new) (hother : Rewrites at? prev text other) :
    new = other := by
  induction h generalizing other with
  | nil =>
      generalize htext : [] = text at hother
      cases hother with
      | nil => rfl
      | keep => cases htext
      | swap nonempty => exact absurd (List.append_eq_nil_iff.mp htext.symm).1 nonempty
  | @keep prev c rest new missed _ ih =>
      generalize htext : c :: rest = text at hother
      cases hother with
      | nil => cases htext
      | keep _ tail =>
          obtain ⟨rfl, rfl⟩ := List.cons.inj htext
          rw [ih tail]
      | swap _ found =>
          rw [htext, found] at missed
          cases missed
  | @swap prev taken out rest new nonempty found _ ih =>
      generalize htext : taken ++ rest = text at hother
      cases hother with
      | nil => exact absurd (List.append_eq_nil_iff.mp htext).1 nonempty
      | keep missed =>
          rw [← htext, found] at missed
          cases missed
      | swap _ found' tail =>
          rw [← htext, found] at found'
          obtain ⟨rfl, rfl⟩ := Prod.mk.inj (Option.some.inj found')
          obtain rfl := List.append_cancel_left htext
          rw [ih tail]

/-- Two texts are rewritten one after the other if the second changes nothing in what is taken
from the first. -/
theorem append {rest more : List Char} (h : Rewrites at? prev text new)
    (hagree : ∀ front back, text = front ++ back → back ≠ [] →
      at? (front.getLast?.or prev) (back ++ rest) = at? (front.getLast?.or prev) back)
    (hrest : Rewrites at? (text.getLast?.or prev) rest more) :
    Rewrites at? prev (text ++ rest) (new ++ more) := by
  induction h with
  | nil => exact hrest
  | @keep prev c tail new missed _ ih =>
      have hhere := hagree [] (c :: tail) rfl (List.cons_ne_nil c tail)
      refine .keep (hhere.trans missed) (ih ?_ ?_)
      · rintro front back rfl hne
        have hnext := hagree (c :: front) back rfl hne
        rwa [getLast?_cons_or] at hnext
      · rwa [getLast?_cons_or] at hrest
  | @swap prev taken out tail new nonempty found _ ih =>
      have hlast : taken.getLast? ≠ none := by simpa using nonempty
      obtain ⟨d, hd⟩ := Option.ne_none_iff_exists'.mp hlast
      have hpassed (front : List Char) :
          (taken ++ front).getLast?.or prev = front.getLast?.or taken.getLast? := by
        rw [List.getLast?_append, Option.or_assoc, hd, Option.some_or]
      have hhere := hagree [] (taken ++ tail) rfl (by simp [nonempty])
      rw [List.append_assoc] at hhere
      rw [List.append_assoc, List.append_assoc]
      refine .swap nonempty (hhere.trans found) (ih ?_ ?_)
      · rintro front back rfl hne
        have hnext := hagree (taken ++ front) back (List.append_assoc _ _ _).symm hne
        rwa [hpassed] at hnext
      · rwa [hpassed] at hrest

theorem of_start {next : Option Char} (h : Rewrites at? prev text new)
    (hstart : at? next text = at? prev text) : Rewrites at? next text new := by
  cases h with
  | nil => exact .nil
  | keep missed tail => exact .keep (hstart.trans missed) tail
  | swap nonempty found tail => exact .swap nonempty (hstart.trans found) tail

theorem keep_append {front : List Char} (hfront : ∀ c ∈ front, ∀ p rest, at? p (c :: rest) = none)
    (h : Rewrites at? (front.getLast?.or prev) text new) :
    Rewrites at? prev (front ++ text) (front ++ new) := by
  induction front generalizing prev with
  | nil => exact h
  | cons c front ih =>
      obtain ⟨hc, hrest⟩ := List.forall_mem_cons.mp hfront
      rw [getLast?_cons_or] at h
      exact .keep (hc prev _) (ih hrest h)

/-- A text comes through unchanged, or there is a last place where something is taken. -/
theorem last (h : Rewrites at? prev text new) : new = text ∨
    ∃ front taken back out p before, text = front ++ (taken ++ back) ∧
      at? p (taken ++ back) = some (taken, out) ∧ taken ≠ [] ∧ new = before ++ (out ++ back) := by
  induction h with
  | nil => exact Or.inl rfl
  | @keep prev c rest new _ _ ih =>
      rcases ih with rfl | ⟨front, taken, back, out, p, before, rfl, hfound, hne, rfl⟩
      · exact Or.inl rfl
      · exact Or.inr ⟨c :: front, taken, back, out, p, c :: before, rfl, hfound, hne, rfl⟩
  | @swap prev taken out rest new nonempty found _ ih =>
      rcases ih with rfl | ⟨front, taken', back, out', p, before, rfl, hfound, hne, rfl⟩
      · exact Or.inr ⟨[], taken, new, out, prev, [], rfl, found, nonempty, rfl⟩
      · exact Or.inr ⟨taken ++ front, taken', back, out', p, out ++ before, by simp, hfound, hne,
          by simp⟩

/-- A text comes through unchanged, or there is a first place where something is taken. -/
theorem first (h : Rewrites at? prev text new) : new = text ∨
    ∃ front taken back out behind, text = front ++ (taken ++ back) ∧
      at? (front.getLast?.or prev) (taken ++ back) = some (taken, out) ∧ taken ≠ [] ∧
        new = front ++ (out ++ behind) := by
  induction h with
  | nil => exact Or.inl rfl
  | @keep prev c rest new _ _ ih =>
      rcases ih with rfl | ⟨front, taken, back, out, behind, rfl, hfound, hne, rfl⟩
      · exact Or.inl rfl
      · refine Or.inr ⟨c :: front, taken, back, out, behind, rfl, ?_, hne, rfl⟩
        rwa [getLast?_cons_or]
  | @swap prev taken out rest new nonempty found _ _ =>
      exact Or.inr ⟨[], taken, rest, out, new, rfl, found, nonempty, rfl⟩

end Rewrites

section Anchored

variable {at? : Spotter}

/-- What is taken at the start of a text only leaves the rest alone. -/
theorem rewrites_behind_anchor (h : ∀ p text, at? (some p) text = none) (p : Char)
    (text : List Char) : Rewrites at? (some p) text text := by
  induction text generalizing p with
  | nil => exact .nil
  | cons c text ih => exact .keep (h p (c :: text)) (ih c)

theorem rewrites_of_anchor (h : ∀ p text, at? (some p) text = none) {text : List Char}
    (hstart : at? none text = none) : Rewrites at? none text text := by
  rcases text with _ | ⟨c, text⟩
  · exact .nil
  · exact .keep hstart (rewrites_behind_anchor h c text)

end Anchored

section Finding

variable {find : Finder} {expand : Match → List Char} {at? : Spotter}

/-- Whether a finder finds at a place just what is spotted there. -/
def Finds (find : Finder) (expand : Match → List Char) (before after : List Char)
    (spotted : Option (List Char × List Char)) : Prop :=
  (find before after).map (fun m => (m.length, expand m)) =
    spotted.map fun found => (found.1.length, found.2)

theorem Finds.replaceFrom_nil {before : List Char} (h : Finds find expand before [] none)
    (adjoins : Bool) : replaceFrom find expand before 0 adjoins [] = [] := by
  rw [Finds, Option.map_none, Option.map_eq_none_iff] at h
  simp [replaceFrom, h]

theorem Finds.replaceFrom_keep {before rest : List Char} {c : Char}
    (h : Finds find expand before (c :: rest) none) (adjoins : Bool) :
    replaceFrom find expand before 0 adjoins (c :: rest) =
      c :: replaceFrom find expand (c :: before) 0 false rest := by
  rw [Finds, Option.map_none, Option.map_eq_none_iff] at h
  exact replaceFrom_of_eq_none expand h adjoins

theorem Finds.replaceFrom_swap {before taken rest out : List Char} (hne : taken ≠ [])
    (h : Finds find expand before (taken ++ rest) (some (taken, out))) (adjoins : Bool) :
    replaceFrom find expand before 0 adjoins (taken ++ rest) =
      out ++ replaceFrom find expand (taken.reverse ++ before) 0 true rest := by
  obtain ⟨m, hm, heq⟩ := Option.map_eq_some_iff.mp h
  obtain ⟨hlength, rfl⟩ := Prod.mk.inj heq
  exact replaceFrom_of_eq_some expand hne hm hlength adjoins

theorem head?_reverse_append {taken : List Char} (hne : taken ≠ []) (before : List Char) :
    (taken.reverse ++ before).head? = taken.getLast? := by
  rw [List.head?_append_of_ne_nil _ (by simpa using hne), List.head?_reverse]

/-- Whether what is behind a place is rewritten when it is replaced. -/
def RewritesFrom (at? : Spotter) (find : Finder) (expand : Match → List Char)
    (before text : List Char) : Prop :=
  ∀ adjoins, Rewrites at? before.head? text (replaceFrom find expand before 0 adjoins text)

namespace RewritesFrom

variable {before taken rest out : List Char} {c : Char}

theorem nil (h : Finds find expand before [] none) : RewritesFrom at? find expand before [] := by
  intro adjoins
  rw [h.replaceFrom_nil]
  exact .nil

theorem keep (missed : at? before.head? (c :: rest) = none)
    (h : Finds find expand before (c :: rest) none)
    (tail : RewritesFrom at? find expand (c :: before) rest) :
    RewritesFrom at? find expand before (c :: rest) := by
  intro adjoins
  rw [h.replaceFrom_keep]
  exact .keep missed (tail false)

theorem swap (hne : taken ≠ []) (found : at? before.head? (taken ++ rest) = some (taken, out))
    (h : Finds find expand before (taken ++ rest) (some (taken, out)))
    (tail : RewritesFrom at? find expand (taken.reverse ++ before) rest) :
    RewritesFrom at? find expand before (taken ++ rest) := by
  intro adjoins
  rw [h.replaceFrom_swap hne]
  refine .swap hne found ?_
  rw [← head?_reverse_append hne before]
  exact tail true

/-- What is found may begin one character before what is spotted, if that character is put back. -/
theorem swap_behind (hne : taken ≠ []) (missed : at? before.head? (c :: (taken ++ rest)) = none)
    (found : at? (some c) (taken ++ rest) = some (taken, out))
    (h : Finds find expand before (c :: taken ++ rest) (some (c :: taken, c :: out)))
    (tail : RewritesFrom at? find expand ((c :: taken).reverse ++ before) rest) :
    RewritesFrom at? find expand before (c :: (taken ++ rest)) := by
  intro adjoins
  have hswap := h.replaceFrom_swap (List.cons_ne_nil c taken) adjoins
  rw [List.cons_append, List.cons_append] at hswap
  rw [hswap]
  refine .keep missed (.swap hne found ?_)
  rw [← List.getLast?_cons_of_ne_nil hne, ← head?_reverse_append (List.cons_ne_nil c taken) before]
  exact tail true

end RewritesFrom

theorem rewrites_of_finds (hlawful : at?.Lawful)
    (hfind : ∀ before after, Finds find expand before after (at? before.head? after))
    (before text : List Char) : RewritesFrom at? find expand before text := by
  induction hlength : text.length using Nat.strongRecOn generalizing before text with
  | ind n ih =>
      have hplace := hfind before text
      cases hspot : at? before.head? text with
      | none =>
          rw [hspot] at hplace
          rcases text with _ | ⟨c, rest⟩
          · exact .nil hplace
          · refine .keep hspot hplace (ih rest.length ?_ (c :: before) rest rfl)
            simp [← hlength]
      | some found =>
          obtain ⟨taken, out⟩ := found
          obtain ⟨hne, rest, rfl⟩ := hlawful hspot
          rw [hspot] at hplace
          refine .swap hne hspot hplace (ih rest.length ?_ _ rest rfl)
          have hpos := List.length_pos_iff.mpr hne
          rw [← hlength, List.length_append]
          omega

/-- What a rule takes that has to take the character in front as well, unless it stands at the
start of the text. The character is put back. -/
def guarded (at? : Spotter) (before : List Char) (after : List Char) :
    Option (List Char × List Char) :=
  (if before.isEmpty then at? none after else none).or
    (match after with
    | [] => none
    | c :: rest => (at? (some c) rest).map fun found => (c :: found.1, c :: found.2))

section Guarded

variable {before text : List Char} {c : Char} {found : List Char × List Char}

theorem guarded_nil (hlawful : at?.Lawful) (before : List Char) : guarded at? before [] = none := by
  simp [guarded, hlawful.nil]

theorem guarded_start (hspot : at? none text = some found) :
    guarded at? [] text = some found := by simp [guarded, hspot]

/-- Where nothing is taken without the guard, it is the next place that counts. -/
theorem guarded_cons (hstart : before = [] → at? none (c :: text) = none) :
    guarded at? before (c :: text) =
      (at? (some c) text).map fun found => (c :: found.1, c :: found.2) := by
  cases before with
  | nil => simp [guarded, hstart rfl]
  | cons d before => simp [guarded]

end Guarded

/-- Away from the start a place is known to be free: it has been tried with its guard in front. -/
theorem rewritesFrom_of_guarded (hlawful : at?.Lawful)
    (hfind : ∀ before after, Finds find expand before after (guarded at? before after))
    (hbehind : ∀ {prev text taken out}, at? prev text = some (taken, out) →
      ∀ rest, at? taken.getLast? rest = none) {before text : List Char}
    (hfree : before = [] ∨ at? before.head? text = none) :
    RewritesFrom at? find expand before text := by
  induction hlength : text.length using Nat.strongRecOn generalizing before text with
  | ind n ih =>
      have hplace := hfind before text
      cases hspot : at? before.head? text with
      | some found =>
          obtain ⟨taken, out⟩ := found
          obtain ⟨hne, rest, rfl⟩ := hlawful hspot
          obtain rfl : before = [] := hfree.resolve_right (by rw [hspot]; nofun)
          rw [guarded_start hspot] at hplace
          refine .swap hne hspot hplace (ih rest.length ?_ (Or.inr ?_) rfl)
          · have hpos := List.length_pos_iff.mpr hne
            rw [← hlength, List.length_append]
            omega
          · rw [head?_reverse_append hne]
            exact hbehind hspot rest
      | none =>
          rcases text with _ | ⟨c, text⟩
          · rw [guarded_nil hlawful] at hplace
            exact .nil hplace
          · rw [guarded_cons (by rintro rfl; exact hspot)] at hplace
            cases hnext : at? (some c) text with
            | none =>
                rw [hnext] at hplace
                refine .keep hspot hplace (ih text.length ?_ (Or.inr hnext) rfl)
                simp [← hlength]
            | some found =>
                obtain ⟨taken, out⟩ := found
                obtain ⟨hne, rest, rfl⟩ := hlawful hnext
                rw [hnext] at hplace
                refine .swap_behind hne hspot hnext hplace (ih rest.length ?_ (Or.inr ?_) rfl)
                · rw [← hlength, List.length_cons, List.length_append]
                  omega
                · rw [head?_reverse_append (List.cons_ne_nil c taken),
                    List.getLast?_cons_of_ne_nil hne]
                  exact hbehind hnext rest

/-- A rule with a guard does what it would do if it could look back, provided that nothing is
taken right behind what has been taken. -/
theorem rewrites_of_guarded (hlawful : at?.Lawful)
    (hfind : ∀ before after, Finds find expand before after (guarded at? before after))
    (hbehind : ∀ {prev text taken out}, at? prev text = some (taken, out) →
      ∀ rest, at? taken.getLast? rest = none) (text : List Char) :
    Rewrites at? none text (replaceMatches find expand text) :=
  rewritesFrom_of_guarded hlawful hfind hbehind (Or.inl rfl) false

end Finding

end ClassSkeleton.Pattern
