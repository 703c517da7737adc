import ClassSkeleton.Proofs.Pattern.Keeping
import ClassSkeleton.Proofs.Rules.Openers

namespace ClassSkeleton.Rules

/-!
# Commas that come to light

The rules with templates keep the outline of a type. A rule that unwraps takes brackets out of it
in pairs, and what stood between two arguments of a wrapper may then stand outside all brackets.
-/

open Pattern Text

namespace Standard

/-- Whether an entry makes a rule that keeps the outline, if it is a pattern at all. -/
def entryKeeps (pattern template : List Char) : Bool :=
  (Grammar.read? pattern).all fun found => keepsOutline found.1 (Template.parts template)

theorem outline_replaceWith {pattern template : List Char} (h : entryKeeps pattern template = true)
    (text : List Char) : outline (replaceWith pattern template text) = outline text := by
  rw [replaceWith]
  cases hread : Grammar.read? pattern with
  | none => rfl
  | some found =>
      rw [entryKeeps, hread, Option.all_some] at h
      exact (keeps_of_keepsOutline h found.2).outline_replaceFrom [] 0 false text

theorem outline_apply_tableOf {entries : Entries}
    (h : (entries.all fun entry => entryKeeps entry.1.toList entry.2.toList) = true)
    (text : String) : outline ((tableOf entries).apply text).toList = outline text.toList := by
  rw [apply_tableOf, String.toList_ofList]
  generalize text.toList = chars
  induction entries generalizing chars with
  | nil => rfl
  | cons entry entries ih =>
      rw [List.all_cons, Bool.and_eq_true] at h
      rw [List.foldl_cons, ih h.2, outline_replaceWith h.1]

theorem outline_apply_typeReferences (text : String) :
    outline (standard.typeReferences.apply text).toList = outline text.toList := by
  have hreferences :
      (typeReferences.all fun entry => entryKeeps entry.1.toList entry.2.toList) = true := by
    decide +kernel
  have htable : standard.typeReferences = tableOf typeReferences := by rw [standard]
  rw [htable]
  exact outline_apply_tableOf hreferences text

theorem outline_apply_types (text : String) :
    outline (standard.types.apply text).toList = outline text.toList := by
  have hspellings :
      (spellings.all fun entry => entryKeeps entry.1.toList entry.2.toList) = true := by
    simp only [← chars_eq_toList]
    decide +kernel
  have hscalars : (scalars.all fun entry => entryKeeps entry.1.toList entry.2.toList) = true := by
    simp only [← chars_eq_toList]
    decide +kernel
  have hmarkers : (markers.all fun entry => entryKeeps entry.1.toList entry.2.toList) = true := by
    simp only [← chars_eq_toList]
    decide +kernel
  have htypes : standard.types = tableOf (spellings ++ scalars ++ markers) := by rw [standard]
  rw [htypes]
  apply outline_apply_tableOf
  rw [List.all_append, List.all_append, hspellings, hscalars, hmarkers]
  rfl

theorem outline_separators (text : List Char) :
    outline (replaceWith "::".toList ".".toList text) = outline text := by
  have hkeeps : entryKeeps "::".toList ".".toList = true := by decide +kernel
  exact outline_replaceWith hkeeps text

end Standard

/-- The commas that come to stand outside all brackets when what a finder finds is unwrapped, from
a place on. -/
def exposedFrom (find : Finder) (before after : List Char) : Nat :=
  match after with
  | [] => 0
  | c :: rest =>
    match find before (c :: rest) with
    | none => exposedFrom find (c :: before) rest
    | some m =>
      match m.length with
      | 0 => exposedFrom find (c :: before) rest
      | n + 1 =>
        match _closed : cutAtClose? 0 (rest.drop n) with
        | some (inside, tail) =>
          outerCommas before inside + exposedFrom find before (trim inside ++ tail)
        | none => exposedFrom find before (rest.drop n)
termination_by after.length
decreasing_by
  · simp
  · simp
  · have hparts := congrArg List.length (cutAtClose?_eq_append _closed)
    have htrim := length_trim_le inside
    simp only [List.length_drop, List.length_append, List.length_cons] at hparts ⊢
    omega
  · simp only [List.length_drop, List.length_cons]
    omega

theorem exposedFrom_of_closed {find : Finder} {before rest inside tail : List Char} {c : Char}
    {m : Match} {n : Nat} (hm : find before (c :: rest) = some m) (hlength : m.length = n + 1)
    (hclosed : cutAtClose? 0 (rest.drop n) = some (inside, tail)) :
    exposedFrom find before (c :: rest) =
      outerCommas before inside + exposedFrom find before (trim inside ++ tail) := by
  rw [exposedFrom]
  simp only [hm, hlength]
  split
  · next cut behind hcut =>
    obtain ⟨rfl, rfl⟩ := Prod.mk.inj (Option.some.inj (hcut.symm.trans hclosed))
    rfl
  · next hopen => cases hopen.symm.trans hclosed

namespace Opens

variable {find : Finder} {names : List (List Char)}

/-- An opener adds one bracket to the outline. -/
theorem outline_of_found (h : Opens find names) {before after : List Char} {m : Match}
    (hm : find before after = some m) : outline after = '<' :: outline (after.drop m.length) := by
  obtain ⟨name, hname, gap, rest, hgap, rfl, hlength⟩ := h.found hm
  have hspelled : outline name = [] :=
    outline_of_notMem fun c hc => notMem_marks_of_isNameChar (h.spelled name hname c hc)
  have hblank : outline gap = [] :=
    outline_of_notMem fun c hc => notMem_marks_of_isBlank (hgap c hc)
  rw [hlength, drop_opener, outline_append, outline_append, hspelled, hblank,
    outline_cons_of_mem (by decide)]
  rfl

/-- An opener with what it encloses has the outline of a pair of brackets. -/
theorem outline_of_closed (h : Opens find names) {before rest inside tail : List Char} {c : Char}
    {m : Match} {n : Nat} (hm : find before (c :: rest) = some m) (hlength : m.length = n + 1)
    (hclosed : cutAtClose? 0 (rest.drop n) = some (inside, tail)) :
    outline (c :: rest) = outline ('<' :: (inside ++ ['>']) ++ tail) := by
  rw [h.outline_of_found hm, hlength, List.drop_succ_cons, cutAtClose?_eq_append hclosed,
    ← outline_cons_of_mem (by decide)]
  simp

/-- Every opener is closed in a text with balanced angle brackets. -/
theorem closes (h : Opens find names) {before rest : List Char} {c : Char} {m : Match} {n : Nat}
    (hm : find before (c :: rest) = some m) (hlength : m.length = n + 1)
    (hsettles : Settles .angle (before.reverse ++ c :: rest)) :
    cutAtClose? 0 (rest.drop n) ≠ none := by
  intro hopen
  have hrest := nonneg_of_cutAtClose?_eq_none hopen
  have hfront := hsettles.nonneg before.reverse (c :: rest) rfl
  have hsettled := hsettles.settled
  have hopener : depth .angle (c :: rest) = 1 + depth .angle (rest.drop n) := by
    rw [← depth_outline, h.outline_of_found hm, hlength, List.drop_succ_cons, depth_cons,
      depth_outline]
    rfl
  rw [depth_append, hopener] at hsettled
  omega

/-- To unwrap a balanced text leaves it balanced, and adds to the commas outside all brackets just
those that come to light. -/
theorem outerCommas_unwrapFrom (h : Opens find names) (before after : List Char)
    (hbalanced : Balanced (before.reverse ++ after)) :
    Balanced (unwrapFrom find before after).text ∧
      outerCommas [] (unwrapFrom find before after).text =
        outerCommas [] (before.reverse ++ after) + exposedFrom find before after := by
  fun_induction unwrapFrom find before after with
  | case1 before => simpa [exposedFrom] using hbalanced
  | case2 before c rest hnone ih =>
      have hmoved : (c :: before).reverse ++ rest = before.reverse ++ c :: rest := by simp
      rw [exposedFrom]
      simp only [hnone]
      rw [← hmoved]
      exact ih (hmoved ▸ hbalanced)
  | case3 before c rest m hm hlength =>
      have hopener := congrArg List.length (h.outline_of_found hm)
      rw [hlength, List.drop_zero, List.length_cons] at hopener
      omega
  | case4 before c rest m hm n hlength inside tail hclosed ih =>
      have hinside := settles_of_cutAtClose? hclosed
      have hopener := h.outline_of_closed hm hlength hclosed
      have hall : outline (before.reverse ++ c :: rest) =
          outline (before.reverse ++ ('<' :: (inside ++ ['>']) ++ tail)) := by
        rw [outline_append, hopener, ← outline_append]
      have htrim : outline (before.reverse ++ (inside ++ tail)) =
          outline (before.reverse ++ (trim inside ++ tail)) := by
        simp only [outline_append, outline_trim]
      have hbefore : 0 ≤ depth .angle before := by
        have hfront := (hbalanced .angle).nonneg before.reverse (c :: rest) rfl
        rwa [depth_reverse] at hfront
      have hremoved := (hbalanced.of_outline hall).remove_pair hinside
      obtain ⟨hdone, hcount⟩ := ih (hremoved.of_outline htrim)
      refine ⟨hdone, ?_⟩
      have hbehind (text : List Char) : outerCommas [] (before.reverse ++ text) =
          outerCommas [] before.reverse + outerCommas before text := by
        rw [outerCommas_append, List.reverse_reverse, List.append_nil]
      have hexposed : outerCommas before (inside ++ tail) =
          outerCommas before ('<' :: (inside ++ ['>']) ++ tail) + outerCommas before inside :=
        outerCommas_remove_pair hinside hbefore
      rw [hcount, ← outerCommas_of_outline htrim, hbehind, hbehind, hexposed,
        ← outerCommas_of_outline hopener, exposedFrom_of_closed hm hlength hclosed]
      omega
  | case5 before c rest m hm n hlength hopen =>
      exact absurd hopen (h.closes hm hlength (hbalanced .angle))

end Opens

/-- The commas that the unwrapping rule of a pattern brings to light in a text. -/
def exposedWith (pattern text : List Char) : Nat :=
  match Grammar.read? pattern with
  | some (node, _) => exposedFrom node.matchAt? [] text
  | none => 0

/-- The commas that unwrapping rules bring to light, each in what the rule before it left. -/
def exposedBy : List String → List Char → Nat
  | [], _ => 0
  | pattern :: patterns, text =>
    exposedWith pattern.toList text + exposedBy patterns (unwrapWith pattern.toList text)

theorem Unwraps.outerCommas_unwrapWith {pattern : List Char} {names : List (List Char)}
    (h : Unwraps pattern names) {text : List Char} (htext : Balanced text) :
    Balanced (unwrapWith pattern text) ∧ outerCommas [] (unwrapWith pattern text) =
      outerCommas [] text + exposedWith pattern text := by
  obtain ⟨node, groups, hread, hopens⟩ := h
  rw [unwrapWith, exposedWith, hread]
  exact hopens.outerCommas_unwrapFrom [] text htext

theorem outerCommas_foldl_unwrapWith {patterns : List String} {tables : List (List (List Char))}
    (h : List.Forall₂ (fun pattern names => Unwraps pattern.toList names) patterns tables)
    {text : List Char} (htext : Balanced text) :
    Balanced (patterns.foldl (fun text pattern => unwrapWith pattern.toList text) text) ∧
      outerCommas [] (patterns.foldl (fun text pattern => unwrapWith pattern.toList text) text) =
        outerCommas [] text + exposedBy patterns text := by
  induction h generalizing text with
  | nil => exact ⟨htext, rfl⟩
  | cons hfirst _ ih =>
      obtain ⟨hbalanced, hcount⟩ := hfirst.outerCommas_unwrapWith htext
      obtain ⟨hall, hcounts⟩ := ih hbalanced
      refine ⟨hall, ?_⟩
      rw [List.foldl_cons, hcounts, hcount, exposedBy, Nat.add_assoc]

theorem Standard.outerCommas_apply_typeRemovals {text : String} (h : Balanced text.toList) :
    Balanced (standard.typeRemovals.apply text).toList ∧
      outerCommas [] (standard.typeRemovals.apply text).toList =
        outerCommas [] text.toList + exposedBy wrappers text.toList := by
  obtain ⟨hbalanced, hcount⟩ := outerCommas_foldl_unwrapWith wrappers_unwrap h
  have hsame := outline_separators (wrappers.foldl
    (fun text pattern => unwrapWith pattern.toList text) text.toList)
  rw [apply_typeRemovals, String.toList_ofList, outerCommas_of_outline hsame]
  exact ⟨hbalanced.of_outline hsame.symm, hcount⟩

end ClassSkeleton.Rules
