import ClassSkeleton.Proofs.Rules.Aligned
import ClassSkeleton.Proofs.Rules.Exposing

namespace ClassSkeleton.Rules

/-!
# Removals from texts that differ in blanks

Wrappers and qualifiers are removed from two aligned texts alike, so that the same signs are left.
-/

open Pattern Text

section Unwrapping

variable {find : Finder} {names : List (List Char)}

/-- A wrapper is taken off with both of its brackets. -/
theorem Opens.settles_of_closed (h : Opens find names) {before rest inside tail : List Char}
    {c : Char} {m : Match} {n : Nat} (hm : find before (c :: rest) = some m)
    (hlength : m.length = n + 1) (hclosed : cutAtClose? 0 (rest.drop n) = some (inside, tail))
    (hsettles : Settles .angle (before.reverse ++ c :: rest)) :
    Settles .angle (before.reverse ++ (trim inside ++ tail)) := by
  have hinside := settles_of_cutAtClose? hclosed
  have htrim : Settles .angle (trim inside) := hinside.of_outline (outline_trim inside).symm
  have hopener := h.outline_of_closed hm hlength hclosed
  have hall : Settles .angle (before.reverse ++ ('<' :: (inside ++ ['>']) ++ tail)) := by
    refine hsettles.of_outline ?_
    rw [outline_append, hopener, ← outline_append]
  have henclosed : depth .angle ('<' :: (inside ++ ['>'])) = 0 := hinside.enclose.settled
  refine hall.splice (htrim.settled.trans henclosed.symm) ?_
  intro first second hparts
  have hfront := hall.nonneg before.reverse _ rfl
  have hfirst := htrim.nonneg first second hparts
  omega

/-- To unwrap a text with balanced angle brackets leaves them balanced. -/
theorem Opens.settles_unwrapFrom (h : Opens find names) (before after : List Char)
    (hsettles : Settles .angle (before.reverse ++ after)) :
    Settles .angle (unwrapFrom find before after).text := by
  fun_induction unwrapFrom find before after with
  | case1 before => simpa using hsettles
  | case2 before c rest hnone ih => exact ih (by simpa using hsettles)
  | case3 before c rest m hm hlength ih => exact ih (by simpa using hsettles)
  | case4 before c rest m hm n hlength inside tail hclosed ih =>
      exact ih (h.settles_of_closed hm hlength hclosed hsettles)
  | case5 before c rest m hm n hlength hopen =>
      exact absurd hopen (h.closes hm hlength hsettles)

theorem Opens.aligned_unwrapAll (h : Opens find names) (hedged : IsEdged find)
    {first second : List Char} (haligned : Aligned none first second)
    (hsettles : Settles .angle first) :
    Aligned none (unwrapAll find first).text (unwrapAll find second).text ∧
      Settles .angle (unwrapAll find first).text := by
  have hstart : ([] : List Char).head? = ([] : List Char).getLast?.or none := rfl
  obtain ⟨rest, rest', hrest, hrest', hdone⟩ :=
    h.staysAligned hedged hstart hstart nofun nofun haligned (.of_settles hsettles)
  rw [unwrapAll, unwrapAll, hrest, hrest']
  refine ⟨hdone, ?_⟩
  have hleft := h.settles_unwrapFrom [] first hsettles
  rwa [hrest] at hleft

end Unwrapping

namespace Standard

/-- The openers of wrappers do not start in the middle of a word. -/
theorem wrappers_edged : List.Forall₂ (fun pattern names => ∃ node groups,
    Grammar.read? pattern.toList = some (node, groups) ∧ Opens node.matchAt? names ∧
      IsEdged node.matchAt?) wrappers [boostWrappers, stdWrappers] := by
  have hentry {pattern : String} {names : List (List Char)}
      (hread : (Grammar.read? pattern.toList).any (fun found =>
        found.1.isPlain && decide (found.1.openerNames? = some names)) = true)
      (hnames : ∀ name ∈ names, (∀ c ∈ name, isNameChar c = true) ∧
        name.head?.any Unicode.isWord = true) : ∃ node groups,
      Grammar.read? pattern.toList = some (node, groups) ∧ Opens node.matchAt? names ∧
        IsEdged node.matchAt? := by
    obtain ⟨⟨node, groups⟩, hfound, hboth⟩ := (Option.any_eq_true _ _).mp hread
    obtain ⟨hplain, hopener⟩ := (Bool.and_eq_true _ _).mp hboth
    have hopener := of_decide_eq_true hopener
    exact ⟨node, groups, hfound, opens_of_openerNames? hopener hplain (fun name hname =>
      (hnames name hname).1) fun name hname => (hnames name hname).2,
      isEdged_of_openerNames? hopener fun name hname => (hnames name hname).2⟩
  exact .cons (hentry (by decide +kernel) (by decide +kernel))
    (.cons (hentry (by decide +kernel) (by decide +kernel)) .nil)

/-- What is left of a text when wrappers have been taken off. -/
def unwrapped (text : List Char) : List Char :=
  wrappers.foldl (fun text pattern => unwrapWith pattern.toList text) text

/-- The patterns as characters, for a proof that computes. -/
theorem unwrapped_eq (text : List Char) : unwrapped text =
    wrappers.foldl (fun text pattern => unwrapWith (chars pattern) text) text := by
  simp only [unwrapped, chars_eq_toList]

theorem aligned_unwrapped {first second : List Char} (h : Aligned none first second)
    (hsettles : Settles .angle first) : Aligned none (unwrapped first) (unwrapped second) := by
  rw [unwrapped, unwrapped]
  have hall := wrappers_edged
  generalize wrappers = patterns, [boostWrappers, stdWrappers] = tables at hall
  induction hall generalizing first second with
  | nil => exact h
  | @cons pattern _ _ _ hfirst _ ih =>
      obtain ⟨node, groups, hread, hopens, hedged⟩ := hfirst
      obtain ⟨haligned, hleft⟩ := hopens.aligned_unwrapAll hedged h hsettles
      have hwith (text : List Char) : unwrapWith pattern.toList text =
          (unwrapAll node.matchAt? text).text := by
        rw [unwrapWith, hread]
      rw [List.foldl_cons, List.foldl_cons, hwith, hwith]
      exact ih haligned hleft

/-- What is taken where a qualifier ends. -/
def separating : List Phrase := [⟨[.one (.one ':'), .one (.one ':')], ['.'], []⟩]

/-- Puts a dot where a qualifier ends. -/
@[irreducible] def dotted (text : List Char) : List Char :=
  replaceWith "::".toList ".".toList text

theorem rewrites_dotted (text : List Char) :
    Rewrites (spotAny separating) none text (dotted text) := by
  have hphrases : phrases? "::".toList ".".toList = some separating := by decide +kernel
  rw [dotted]
  exact rewrites_of_phrases? hphrases (lawful_spotAny (by decide)) text

theorem spot_separating (prev : Option Char) (text : List Char) : spotAny separating prev text =
    if [':', ':'] <+: text then some ([':', ':'], ['.']) else none := by
  rcases text with _ | ⟨c, text⟩
  · rfl
  · by_cases hc : c = ':'
    · subst hc
      rcases text with _ | ⟨d, text⟩
      · rfl
      · by_cases hd : d = ':'
        · subst hd
          simp [separating, spotAny, Phrase.at?, take?, CharSet.contains]
        · have hne : ':' ≠ d := Ne.symm hd
          simp [separating, spotAny, Phrase.at?, take?, CharSet.contains, hd, hne]
    · have hne : ':' ≠ c := Ne.symm hc
      simp [separating, spotAny, Phrase.at?, take?, CharSet.contains, hc, hne]

theorem rewrites_dotted_behind (prev : Option Char) (text : List Char) :
    Rewrites (spotAny separating) prev text (dotted text) :=
  (rewrites_dotted text).of_start (by rw [spot_separating, spot_separating])

theorem dotted_nil : dotted [] = [] := (rewrites_dotted []).eq .nil

theorem dotted_separator (text : List Char) : dotted (':' :: ':' :: text) = '.' :: dotted text := by
  have hswap : Rewrites (spotAny separating) none ([':', ':'] ++ text) (['.'] ++ dotted text) := by
    refine .swap (List.cons_ne_nil _ _) ?_ (rewrites_dotted_behind _ text)
    rw [spot_separating, if_pos (List.prefix_append _ text)]
  exact (rewrites_dotted _).eq hswap

theorem dotted_cons {c : Char} {text : List Char} (h : ¬ [':', ':'] <+: c :: text) :
    dotted (c :: text) = c :: dotted text := by
  refine (rewrites_dotted _).eq (.keep ?_ (rewrites_dotted_behind (some c) text))
  rw [spot_separating, if_neg h]

theorem dotted_blanks {blanks : List Char} (h : ∀ c ∈ blanks, Unicode.isBlank c = true)
    (text : List Char) : dotted (blanks ++ text) = blanks ++ dotted text := by
  induction blanks with
  | nil => rw [List.nil_append, List.nil_append]
  | cons c blanks ih =>
      obtain ⟨hc, hrest⟩ := List.forall_mem_cons.mp h
      rw [List.cons_append, dotted_cons, ih hrest, List.cons_append]
      intro hstarts
      obtain rfl := (List.cons_prefix_cons.mp hstarts).1
      exact absurd hc (by decide)

/-- A separator of one text is a separator of the other. -/
theorem exists_of_separator {c : Char} {first second : List Char}
    (h : Aligned (some c) first second) (hsep : [':', ':'] <+: c :: first) :
    ∃ rest rest', c = ':' ∧ first = ':' :: rest ∧ second = ':' :: rest' ∧
      Aligned (some ':') rest rest' := by
  obtain ⟨hc, hfirst⟩ := List.cons_prefix_cons.mp hsep
  obtain ⟨rest, rfl⟩ := hfirst
  subst hc
  have hstart : Aligned (some ':') ([] ++ ':' :: rest) second := h
  obtain ⟨gap, rest', rfl, -, hedge, htail⟩ := hstart.exists_of_cons (by simp) (by decide)
  have hnil : gap = [] := by
    rcases hedge with hiff | hopen
    · exact hiff.mp rfl
    · exact absurd (hopen (by decide) ':' rfl) (by decide)
  exact ⟨rest, rest', rfl, rfl, by rw [hnil]; rfl, htail⟩

/-- The same signs are left when separators have become dots. -/
theorem filter_dotted {prev : Option Char} {first second : List Char}
    (h : Aligned prev first second) :
    (dotted first).filter (fun c => !Unicode.isBlank c) =
      (dotted second).filter fun c => !Unicode.isBlank c := by
  have hfilter {blanks : List Char} (hblanks : ∀ c ∈ blanks, Unicode.isBlank c = true)
      (text : List Char) : (dotted (blanks ++ text)).filter (fun c => !Unicode.isBlank c) =
        (dotted text).filter fun c => !Unicode.isBlank c := by
    have hnil : blanks.filter (fun c => !Unicode.isBlank c) = [] := by
      rw [List.filter_eq_nil_iff]
      intro c hc
      simp [hblanks c hc]
    rw [dotted_blanks hblanks, List.filter_append, hnil, List.nil_append]
  induction hlength : first.length using Nat.strongRecOn generalizing prev first second with
  | ind n ih =>
      cases h with
      | blank hfirst hsecond =>
          have hone := hfilter hfirst []
          have htwo := hfilter hsecond []
          rw [List.append_nil] at hone htwo
          rw [hone, htwo]
      | @sign _ c gap other first second hgap hother hc _ htail =>
          rw [hfilter hgap, hfilter hother]
          rw [List.length_append, List.length_cons] at hlength
          by_cases hsep : [':', ':'] <+: c :: first
          · obtain ⟨rest, rest', rfl, rfl, rfl, hrest⟩ := exists_of_separator htail hsep
            rw [List.length_cons] at hlength
            rw [dotted_separator, dotted_separator, List.filter_cons, List.filter_cons,
              ih rest.length (by omega) hrest rfl]
          · have hsep' : ¬ [':', ':'] <+: c :: second := by
              intro hother'
              obtain ⟨rest', rest, rfl, rfl, rfl, -⟩ := exists_of_separator htail.symm hother'
              exact hsep (List.prefix_append [':', ':'] rest)
            rw [dotted_cons hsep, dotted_cons hsep', List.filter_cons, List.filter_cons,
              ih first.length (by omega) htail rfl]

end Standard

end ClassSkeleton.Rules
