import ClassSkeleton.Proofs.Rules.Seams
import ClassSkeleton.Proofs.Rules.Spotting
import ClassSkeleton.Proofs.Text.Trimming

namespace ClassSkeleton.Rules

/-!
# The rules for blanks

One rule trims a text and the next leaves one blank of many. Behind the cut of a text that does not
begin with a blank, or in front of one that does not end with one, they do what they do to its
halves.
-/

open Pattern Text Standard

section Trimming

def trimming : List Phrase := [⟨[.look .textStart, .one .blank, .many .blank], [], []⟩,
  ⟨[.one .blank, .many .blank, .look .textEnd], [], []⟩]

theorem spot_trimming_of_not_isBlank (prev : Option Char) {c : Char}
    (hc : Unicode.isBlank c = false) (text : List Char) :
    spotAny trimming prev (c :: text) = none := by
  cases prev <;> simp [trimming, spotAny, Phrase.at?, take?, CharSet.contains, Look.holds, hc]

theorem spot_trimming_start {text : List Char} {c : Char} (hc : Unicode.isBlank c = true) :
    spotAny trimming none (c :: text) = some (c :: text.takeWhile Unicode.isBlank, []) := by
  have hset : CharSet.blank.contains = Unicode.isBlank := rfl
  simp [trimming, spotAny, Phrase.at?, take?, hset, Look.holds, hc]

theorem spot_trimming (prev c : Char) (text : List Char) (hc : Unicode.isBlank c = true) :
    spotAny trimming (some prev) (c :: text) =
      if text.dropWhile Unicode.isBlank = [] then some (c :: text, []) else none := by
  have hset : CharSet.blank.contains = Unicode.isBlank := rfl
  split
  · next hnil =>
      have hall : text.takeWhile Unicode.isBlank = text :=
        List.takeWhile_eq_self_iff.mpr (List.dropWhile_eq_nil_iff.mp hnil)
      simp [trimming, spotAny, Phrase.at?, take?, hset, Look.holds, hc, hnil, hall]
  · next hne => simp [trimming, spotAny, Phrase.at?, take?, hset, Look.holds, hc, hne]

theorem rewrites_trimming {core trail : List Char} {prev : Option Char}
    (hprev : prev = none → ∀ c ∈ core.head?, Unicode.isBlank c = false)
    (hcore : ∀ c ∈ core.getLast?, Unicode.isBlank c = false)
    (htrail : ∀ c ∈ trail, Unicode.isBlank c = true) :
    Rewrites (spotAny trimming) prev (core ++ trail) core := by
  induction core generalizing prev with
  | nil =>
      rcases trail with _ | ⟨c, trail⟩
      · exact .nil
      · obtain ⟨hc, hrest⟩ := List.forall_mem_cons.mp htrail
        have hnil := List.dropWhile_eq_nil_iff.mpr hrest
        have hall := List.takeWhile_eq_self_iff.mpr hrest
        have hspot : spotAny trimming prev (c :: trail ++ []) = some (c :: trail, []) := by
          rw [List.append_nil]
          cases prev with
          | none => rw [spot_trimming_start hc, hall]
          | some p => rw [spot_trimming p c trail hc, if_pos hnil]
        have hswap := Rewrites.swap (List.cons_ne_nil c trail) hspot .nil
        rwa [List.append_nil] at hswap
  | cons c core ih =>
      have htail : Rewrites (spotAny trimming) (some c) (core ++ trail) core := by
        refine ih nofun fun d hd => hcore d ?_
        rw [List.getLast?_cons, Option.mem_def.mp hd]
        rfl
      refine .keep ?_ htail
      cases hc : Unicode.isBlank c with
      | false => exact spot_trimming_of_not_isBlank prev hc _
      | true =>
          rcases prev with _ | p
          · have hhead := hprev rfl c rfl
            rw [hc] at hhead
            cases hhead
          · rw [spot_trimming p c _ hc, if_neg]
            intro hnil
            have hall := List.dropWhile_eq_nil_iff.mp hnil
            cases hlast : (c :: core).getLast? with
            | none => simp at hlast
            | some z =>
                have hz := hcore z hlast
                have hmem := List.mem_of_getLast? hlast
                rcases List.mem_cons.mp hmem with rfl | hmem
                · rw [hc] at hz
                  cases hz
                · rw [hall z (List.mem_append_left trail hmem)] at hz
                  cases hz

theorem replaceWith_trimming (text : List Char) :
    replaceWith "^\\s+|\\s+$".toList "".toList text = trim text := by
  have hphrases : phrases? "^\\s+|\\s+$".toList "".toList = some trimming := by decide +kernel
  have hlawful : (spotAny trimming).Lawful := lawful_spotAny (by decide)
  refine (rewrites_of_phrases? hphrases hlawful text).eq ?_
  obtain ⟨lead, hlead, htext⟩ := exists_trimStart text
  obtain ⟨trail, htrail, hrest⟩ := exists_trimEnd (trimStart text)
  rw [← trim] at hrest
  have hlast : ∀ c ∈ (trim text).getLast?, Unicode.isBlank c = false := fun c hc =>
    not_isBlank_of_mem_getLast?_trimEnd hc
  have hhead : ∀ c ∈ (trim text).head?, Unicode.isBlank c = false := by
    intro c hc
    by_cases hne : trim text = []
    · rw [hne] at hc
      cases hc
    · exact (tidy_trim hne).front c hc
  rcases lead with _ | ⟨c, lead⟩
  · rw [List.nil_append, hrest] at htext
    conv => arg 3; rw [htext]
    exact rewrites_trimming (fun _ => hhead) hlast htrail
  · obtain ⟨hc, hblanks⟩ := List.forall_mem_cons.mp hlead
    have htaken : (lead ++ trimStart text).takeWhile Unicode.isBlank = lead :=
      takeWhile_append_of_head hblanks fun c hc => not_isBlank_of_mem_head?_trimStart hc
    have hspot : spotAny trimming none (c :: lead ++ trimStart text) = some (c :: lead, []) := by
      rw [List.cons_append, spot_trimming_start hc, htaken]
    rw [htext]
    have hbehind : Rewrites (spotAny trimming) (c :: lead).getLast? (trimStart text)
        (trim text) := by
      rw [hrest]
      refine rewrites_trimming ?_ hlast htrail
      simp
    have hswap := Rewrites.swap (List.cons_ne_nil c lead) hspot hbehind
    rw [← htext] at hswap ⊢
    exact hswap

end Trimming

section Folding

/-- Leaves one blank of many. -/
@[irreducible] def fold (text : List Char) : List Char :=
  replaceWith "\\s\x7b2,\x7d".toList " ".toList text

def folding : List Phrase := [⟨[.one .blank, .one .blank, .many .blank], [' '], []⟩]

theorem rewrites_fold (text : List Char) : Rewrites (spotAny folding) none text (fold text) := by
  have hphrases : phrases? "\\s\x7b2,\x7d".toList " ".toList = some folding := by decide +kernel
  rw [fold]
  exact rewrites_of_phrases? hphrases (lawful_spotAny (by decide)) text

theorem spot_folding (prev : Option Char) (text : List Char) : spotAny folding prev text =
    if 1 < (text.takeWhile Unicode.isBlank).length then
      some (text.takeWhile Unicode.isBlank, [' ']) else none := by
  have hset : CharSet.blank.contains = Unicode.isBlank := rfl
  rcases text with _ | ⟨c, _ | ⟨d, text⟩⟩
  · rfl
  · cases hc : Unicode.isBlank c <;> simp [folding, spotAny, Phrase.at?, take?, hset, hc]
  · cases hc : Unicode.isBlank c <;> cases hd : Unicode.isBlank d <;>
      simp [folding, spotAny, Phrase.at?, take?, hset, hc, hd]

theorem fold_eq_of_rewrites (prev : Option Char) {text new : List Char}
    (h : Rewrites (spotAny folding) prev text new) : fold text = new := by
  have hstart : Rewrites (spotAny folding) none text new :=
    h.of_start (by rw [spot_folding, spot_folding])
  exact (rewrites_fold text).eq hstart

theorem rewrites_fold_behind (prev : Option Char) (text : List Char) :
    Rewrites (spotAny folding) prev text (fold text) :=
  (rewrites_fold text).of_start (by rw [spot_folding, spot_folding])

@[simp] theorem fold_nil : fold [] = [] := fold_eq_of_rewrites none .nil

theorem fold_cons {c : Char} (hc : Unicode.isBlank c = false) (text : List Char) :
    fold (c :: text) = c :: fold text := by
  refine fold_eq_of_rewrites none (.keep ?_ (rewrites_fold_behind (some c) text))
  simp [spot_folding, hc]

theorem fold_append {text : List Char} (h : ∀ c ∈ text.getLast?, Unicode.isBlank c = false)
    (rest : List Char) : fold (text ++ rest) = fold text ++ fold rest := by
  refine fold_eq_of_rewrites none
    ((rewrites_fold text).append ?_ (rewrites_fold_behind _ rest))
  rintro front back rfl hne
  cases hlast : back.getLast? with
  | none => exact absurd (List.getLast?_eq_none_iff.mp hlast) hne
  | some c =>
      have hc := h c (by rw [List.getLast?_append_of_ne_nil front hne, hlast]; rfl)
      obtain ⟨htake, -⟩ := takeWhile_append_of_mem (List.mem_of_getLast? hlast) hc rest
      rw [spot_folding, spot_folding, htake]

/-- Of the blanks in front of a text there is one left. It is a space if there were more. -/
theorem fold_blanks_append {blanks text : List Char}
    (hblanks : ∀ c ∈ blanks, Unicode.isBlank c = true)
    (htext : ∀ c ∈ text.head?, Unicode.isBlank c = false) :
    fold (blanks ++ text) = (if 1 < blanks.length then [' '] else blanks) ++ fold text := by
  have htake : (blanks ++ text).takeWhile Unicode.isBlank = blanks :=
    takeWhile_append_of_head hblanks htext
  rcases blanks with _ | ⟨c, _ | ⟨d, blanks⟩⟩
  · rfl
  · have hmissed : spotAny folding none (c :: text) = none := by
      rw [List.singleton_append] at htake
      rw [spot_folding, htake]
      rfl
    exact fold_eq_of_rewrites none (.keep hmissed (rewrites_fold_behind (some c) text))
  · rw [if_pos (by simp)]
    refine fold_eq_of_rewrites none (.swap (List.cons_ne_nil c _) ?_ (rewrites_fold_behind _ text))
    rw [spot_folding, htake, if_pos (by simp)]

theorem exists_fold_append {blanks text : List Char}
    (hblanks : ∀ c ∈ blanks, Unicode.isBlank c = true)
    (htext : ∀ c ∈ text.head?, Unicode.isBlank c = false) :
    ∃ gap, (∀ c ∈ gap, Unicode.isBlank c = true) ∧ (blanks ≠ [] → gap ≠ []) ∧
      fold (blanks ++ text) = gap ++ fold text := by
  refine ⟨_, ?_, ?_, fold_blanks_append hblanks htext⟩
  · split
    · exact List.forall_mem_singleton.mpr (by decide)
    · exact hblanks
  · split
    · exact fun _ => List.cons_ne_nil ' ' []
    · exact id

theorem getLast?_fold {text : List Char} {c : Char} (h : text.getLast? = some c)
    (hc : Unicode.isBlank c = false) : (fold text).getLast? = some c := by
  rcases (rewrites_fold text).last with
    heq | ⟨front, taken, back, out, p, before, rfl, hfound, hne, heq⟩
  · rw [heq, h]
  · rw [heq]
    rw [spot_folding] at hfound
    obtain ⟨-, hsome⟩ := Option.ite_none_right_eq_some.mp hfound
    obtain ⟨htaken, -⟩ := Prod.mk.inj (Option.some.inj hsome)
    rcases List.eq_nil_or_concat back with rfl | ⟨back, d, rfl⟩
    · rw [List.append_nil, List.getLast?_append_of_ne_nil front hne] at h
      have hmem := List.mem_of_getLast? h
      rw [← htaken] at hmem
      rw [List.all_eq_true.mp List.all_takeWhile c hmem] at hc
      cases hc
    · simpa using h

theorem tidy_fold {text : List Char} (h : Tidy text) : Tidy (fold text) := by
  obtain ⟨c, rest, rfl⟩ := List.exists_cons_of_ne_nil h.nonempty
  have hlast := List.getLast?_eq_some_getLast h.nonempty
  have hback := h.back _ hlast
  have hsame := getLast?_fold hlast hback
  refine ⟨?_, ?_, ?_⟩
  · rw [fold_cons (h.front c rfl)]
    exact List.cons_ne_nil c _
  · rw [fold_cons (h.front c rfl), List.head?_cons]
    exact fun d hd => Option.some.inj hd ▸ h.front c rfl
  · rw [hsame]
    exact fun d hd => Option.some.inj hd ▸ hback

end Folding

end ClassSkeleton.Rules
