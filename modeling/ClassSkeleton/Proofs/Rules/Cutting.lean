import ClassSkeleton.Proofs.Rules.Halves
import ClassSkeleton.Proofs.Rules.Joints

namespace ClassSkeleton.Rules

/-!
# Cuts that make no difference

A text is cut in two. Where the cut is clear, the rules for types make of the whole what they make
of the halves, with blanks in between.
-/

open Pattern Text

namespace Standard

def const : List Char := ['c', 'o', 'n', 's', 't']

/-- What the rules for constant types take: the word alone, and the word with blanks behind it. -/
def alone : List Phrase :=
  [⟨.look .textStart :: (letters const ++ [.look .textEnd]), "final".toList, []⟩]

def ahead : List Phrase :=
  [⟨.look .textStart :: (letters const ++ [.one .blank, .many .blank]), "final ".toList, []⟩]

/-- Writes `final` for a `const` at the start. -/
@[irreducible] def finalized (text : List Char) : List Char :=
  replaceWith "^const\\s+".toList "final ".toList (replaceWith "^const$".toList "final".toList text)

theorem rewrites_alone (text : List Char) : Rewrites (spotAny alone) none text
    (replaceWith "^const$".toList "final".toList text) := by
  have hphrases : phrases? "^const$".toList "final".toList = some alone := by decide +kernel
  exact rewrites_of_phrases? hphrases (lawful_spotAny (by decide)) text

theorem rewrites_ahead (text : List Char) : Rewrites (spotAny ahead) none text
    (replaceWith "^const\\s+".toList "final ".toList text) := by
  have hphrases : phrases? "^const\\s+".toList "final ".toList = some ahead := by decide +kernel
  exact rewrites_of_phrases? hphrases (lawful_spotAny (by decide)) text

/-- A phrase that begins with a word at the start of a text takes the rest behind that word. -/
theorem exists_take?_of_spotAny {word out text : List Char} {pieces : List Piece}
    {found : List Char × List Char}
    (h : spotAny [⟨.look .textStart :: (letters word ++ pieces), out, []⟩] none text =
      some found) :
    ∃ tail behind, text = word ++ tail ∧ take? pieces (word.getLast?.or none) tail = some behind := by
  obtain ⟨ph, hph, hat⟩ := spotAny_eq_some h
  obtain rfl := List.mem_singleton.mp hph
  obtain ⟨rest, htake, -⟩ := Phrase.take?_of_at? hat
  rw [List.append_nil, take?] at htake
  obtain ⟨-, htake⟩ := Option.ite_none_right_eq_some.mp htake
  obtain ⟨tail, more, rfl, -, htail⟩ := take?_letters htake
  exact ⟨tail, (more, rest), rfl, htail⟩

theorem spot_alone {text : List Char} (h : text ≠ const) : spotAny alone none text = none := by
  rw [Option.eq_none_iff_forall_ne_some]
  intro found hfound
  obtain ⟨tail, behind, rfl, htail⟩ := exists_take?_of_spotAny hfound
  obtain ⟨hend, -⟩ := Option.ite_none_right_eq_some.mp htail
  rw [List.isEmpty_iff.mp hend, List.append_nil] at h
  exact h rfl

theorem spot_ahead {text : List Char}
    (h : ∀ tail, text = const ++ tail → ∀ c ∈ tail.head?, Unicode.isBlank c = false) :
    spotAny ahead none text = none := by
  rw [Option.eq_none_iff_forall_ne_some]
  intro found hfound
  obtain ⟨tail, behind, rfl, htail⟩ := exists_take?_of_spotAny hfound
  rcases tail with _ | ⟨b, tail⟩
  · cases htail
  · obtain ⟨hb, -⟩ := Option.ite_none_right_eq_some.mp htail
    have hblank : Unicode.isBlank b = true := hb
    rw [h _ rfl b rfl] at hblank
    cases hblank

theorem finalized_const : finalized const = "final".toList := by
  rw [finalized]
  decide +kernel

theorem finalized_of_ne {text : List Char} (h : text ≠ const)
    (htail : ∀ tail, text = const ++ tail → ∀ c ∈ tail.head?, Unicode.isBlank c = false) :
    finalized text = text := by
  have halone := (rewrites_alone text).eq (rewrites_of_anchor spot_anchored (spot_alone h))
  rw [finalized, halone]
  exact (rewrites_ahead text).eq (rewrites_of_anchor spot_anchored (spot_ahead htail))

theorem finalized_ahead {gap rest : List Char} (hgap : gap ≠ [])
    (hblank : ∀ c ∈ gap, Unicode.isBlank c = true)
    (hrest : ∀ c ∈ rest.head?, Unicode.isBlank c = false) :
    finalized (const ++ (gap ++ rest)) = "final ".toList ++ rest := by
  have hne : const ++ (gap ++ rest) ≠ const := by simp [hgap]
  have halone := (rewrites_alone _).eq (rewrites_of_anchor spot_anchored (spot_alone hne))
  rw [finalized, halone]
  have hne' : const ++ gap ≠ [] := List.append_ne_nil_of_left_ne_nil (List.cons_ne_nil _ _) gap
  have hspot :
      spotAny ahead none (const ++ gap ++ rest) = some (const ++ gap, "final ".toList) := by
    obtain ⟨b, gap, rfl⟩ := List.exists_cons_of_ne_nil hgap
    obtain ⟨hb, hgap⟩ := List.forall_mem_cons.mp hblank
    have htake : (gap ++ rest).takeWhile Unicode.isBlank = gap :=
      takeWhile_append_of_head hgap hrest
    simp [ahead, spotAny, Phrase.at?, take?, letters, const, Look.holds, CharSet.contains, hb,
      htake]
  have hkept : Rewrites (spotAny ahead) (const ++ gap).getLast? rest rest := by
    rw [List.getLast?_eq_some_getLast hne']
    exact rewrites_behind_anchor spot_anchored _ rest
  rw [← List.append_assoc]
  exact (rewrites_ahead _).eq (.swap hne' hspot hkept)

theorem not_isBlank_of_mem_const {c : Char} (h : c ∈ const) : Unicode.isBlank c = false := by
  have hall : const.all (fun c => !Unicode.isBlank c) = true := by decide
  simpa using List.all_eq_true.mp hall c h

theorem isNameChar_of_mem_const {c : Char} (h : c ∈ const) : isNameChar c = true :=
  List.all_eq_true.mp (by decide : const.all isNameChar = true) c h

section Joined

variable {seams : List Seam} {gap left right : List Char}

theorem finalized_of_not_starts (h : ¬ Starts const right) : finalized right = right := by
  apply finalized_of_ne
  · rintro rfl
    exact h ⟨[], (List.append_nil _).symm, nofun⟩
  · rintro tail rfl c hc
    by_contra hblank
    refine h ⟨tail, rfl, fun _ _ _ d hd => ?_⟩
    rw [Option.mem_def.mp hc] at hd
    obtain rfl := Option.some.inj hd
    exact Unicode.not_isWord_of_isBlank (by simpa using hblank)

/-- The word does not come together at a cut. -/
theorem exists_of_const_append (h : Joined seams gap left right) {tail : List Char}
    (hparts : left ++ (gap ++ right) = const ++ tail) :
    ∃ more, left = const ++ more ∧ tail = more ++ (gap ++ right) := by
  rcases List.append_eq_append_iff.mp hparts with ⟨extra, hconst, hrest⟩ | ⟨more, hleft, htail⟩
  · rcases extra with _ | ⟨c, extra⟩
    · rw [List.append_nil] at hconst
      exact ⟨[], by rw [hconst, List.append_nil], hrest.symm⟩
    · -- The first half ends within the word, so the second goes on with it.
      have hmem : c ∈ const := by rw [hconst]; simp
      have hlast := List.getLast?_eq_some_getLast h.front.nonempty
      rcases gap with _ | ⟨b, gap⟩
      · have hin : left.getLast h.front.nonempty ∈ const := by
          rw [hconst]
          exact List.mem_append_left _ (List.getLast_mem _)
        have hopen : isOpen (left.getLast h.front.nonempty) = true := by
          rw [isOpen, isNameChar_of_mem_const hin]
          rfl
        have hhead := h.apart rfl _ hlast hopen c (by rw [← List.nil_append right, hrest]; rfl)
        rw [isNameChar_of_mem_const hmem] at hhead
        cases hhead
      · obtain ⟨rfl, -⟩ := List.cons.inj hrest
        have hblank := h.blank b List.mem_cons_self
        rw [not_isBlank_of_mem_const hmem] at hblank
        cases hblank
  · exact ⟨more, hleft, htail⟩

theorem ends_of_ends_final {word rest : List Char}
    (hblank : ∀ c ∈ word, Unicode.isBlank c = false) {blanks : List Char} (hne : blanks ≠ [])
    (hblanks : ∀ c ∈ blanks, Unicode.isBlank c = true) (h : Ends word ("final ".toList ++ rest)) :
    Ends word (const ++ (blanks ++ rest)) := by
  obtain ⟨front, hparts, hedge⟩ := h
  have hbehind {passed : List Char} (hfront : front = "final ".toList ++ passed)
      (hrest : rest = passed ++ word) : Ends word (const ++ (blanks ++ rest)) := by
    refine ⟨const ++ (blanks ++ passed), by simp [hrest], fun c hc => ?_⟩
    rcases eq_or_ne passed [] with rfl | hpassed
    · rw [List.append_nil, List.getLast?_append_of_ne_nil _ hne] at hc
      exact Unicode.not_isWord_of_isBlank (hblanks c (List.mem_of_getLast? hc))
    · rw [← List.append_assoc, List.getLast?_append_of_ne_nil _ hpassed] at hc
      exact hedge c (by rw [hfront, List.getLast?_append_of_ne_nil _ hpassed, hc]; rfl)
  rcases List.append_eq_append_iff.mp hparts with ⟨passed, hfront, hrest⟩ | ⟨extra, hfinal, hword⟩
  · exact hbehind hfront hrest
  · rcases List.eq_nil_or_concat extra with rfl | ⟨extra, d, rfl⟩
    · rw [List.append_nil] at hfinal
      have hrest : rest = [] ++ word := hword.symm
      exact hbehind (by rw [hfinal, List.append_nil]) hrest
    · have hlast : ("final ".toList).getLast? = some ' ' := by decide
      rw [hfinal, List.concat_eq_append, ← List.append_assoc, List.getLast?_append] at hlast
      obtain rfl := Option.some.inj hlast
      exact absurd (hblank ' ' (by rw [hword]; simp)) (by decide)

/-- A text is the word, or begins with the word and blanks, or is left as it is. -/
theorem const_cases (text : List Char) : text = const ∨
    (∃ blanks rest, text = const ++ (blanks ++ rest) ∧ blanks ≠ [] ∧
      (∀ c ∈ blanks, Unicode.isBlank c = true) ∧ ∀ c ∈ rest.head?, Unicode.isBlank c = false) ∨
    text ≠ const ∧
      ∀ tail, text = const ++ tail → ∀ c ∈ tail.head?, Unicode.isBlank c = false := by
  by_cases hword : text = const
  · exact Or.inl hword
  · by_cases hstart : ∃ tail, text = const ++ tail ∧ ∃ c ∈ tail.head?, Unicode.isBlank c = true
    · obtain ⟨tail, rfl, c, hc, hblank⟩ := hstart
      obtain ⟨rest, rfl⟩ := List.head?_eq_some_iff.mp hc
      obtain ⟨blanks, hblanks, htrim⟩ := exists_trimStart rest
      refine Or.inr (Or.inl ⟨c :: blanks, trimStart rest, ?_, List.cons_ne_nil c blanks, ?_, ?_⟩)
      · rw [List.cons_append, ← htrim]
      · exact List.forall_mem_cons.mpr ⟨hblank, hblanks⟩
      · exact fun d hd => not_isBlank_of_mem_head?_trimStart hd
    · refine Or.inr (Or.inr ⟨hword, fun tail htail c hc => ?_⟩)
      rw [Bool.eq_false_iff]
      exact fun hblank => hstart ⟨tail, htail, c, hc, hblank⟩

/-- A word that stands alone in front of the cut is written with one space behind it. -/
theorem exists_finalized_const (h : Joined seams gap const right) (hgap : gap ≠ [])
    (hseams : ∀ seam ∈ seams, ¬ seam.1 <:+ "final".toList) :
    ∃ more, finalized (const ++ (gap ++ right)) = finalized const ++ (more ++ right) ∧
      Joined seams more (finalized const) right := by
  rw [finalized_const, finalized_ahead hgap h.blank h.back.front]
  refine ⟨[' '], rfl, ⟨by decide, ?_, ?_⟩, h.back, by decide, nofun, ?_⟩
  · intro c hc
    obtain rfl : 'f' = c := Option.some.inj hc
    decide
  · intro c hc
    obtain rfl : 'l' = c := Option.some.inj hc
    decide
  · rintro seam hseam ⟨⟨front, hends, -⟩, -⟩
    exact hseams seam hseam ⟨front, hends.symm⟩

/-- A word with blanks behind it is written anew away from the cut. -/
theorem exists_finalized_ahead {blanks rest : List Char}
    (h : Joined seams gap (const ++ (blanks ++ rest)) right) (hne : blanks ≠ [])
    (hblanks : ∀ c ∈ blanks, Unicode.isBlank c = true)
    (hhead : ∀ c ∈ rest.head?, Unicode.isBlank c = false)
    (hseams : ∀ seam ∈ seams, ∀ c ∈ seam.1, Unicode.isBlank c = false) :
    ∃ more, finalized (const ++ (blanks ++ rest) ++ (gap ++ right)) =
        finalized (const ++ (blanks ++ rest)) ++ (more ++ right) ∧
      Joined seams more (finalized (const ++ (blanks ++ rest))) right := by
  have hrest : rest ≠ [] := by
    rintro rfl
    have hlast := List.getLast?_eq_some_getLast hne
    have hnot := h.front.back _ (by
      rw [List.append_nil, List.getLast?_append_of_ne_nil _ hne, hlast]; rfl)
    rw [hblanks _ (List.mem_of_getLast? hlast)] at hnot
    cases hnot
  have hsame : ("final ".toList ++ rest).getLast? = (const ++ (blanks ++ rest)).getLast? := by
    rw [List.getLast?_append_of_ne_nil _ hrest, ← List.append_assoc,
      List.getLast?_append_of_ne_nil _ hrest]
  have hwhole : finalized (const ++ (blanks ++ rest) ++ (gap ++ right)) =
      "final ".toList ++ rest ++ (gap ++ right) := by
    rw [List.append_assoc, List.append_assoc, List.append_assoc,
      finalized_ahead hne hblanks]
    rwa [List.head?_append_of_ne_nil _ hrest]
  rw [hwhole, finalized_ahead hne hblanks hhead]
  refine ⟨gap, rfl, ⟨?_, ?_, ?_⟩, h.back, h.blank, ?_, ?_⟩
  · exact List.append_ne_nil_of_right_ne_nil _ hrest
  · rintro c hc
    obtain rfl : 'f' = c := Option.some.inj hc
    decide
  · rw [hsame]
    exact h.front.back
  · intro hnil
    rw [Apart, hsame]
    exact h.apart hnil
  · rintro seam hseam ⟨hends, hstarts⟩
    exact h.seams seam hseam ⟨ends_of_ends_final (hseams seam hseam) hne hblanks hends, hstarts⟩

/-- Where no word stands at the start, the cut does not bring one there. -/
theorem finalized_append_of_ne (h : Joined seams gap left right) (hne : left ≠ const)
    (hleft : ∀ tail, left = const ++ tail → ∀ c ∈ tail.head?, Unicode.isBlank c = false) :
    finalized (left ++ (gap ++ right)) = left ++ (gap ++ right) := by
  apply finalized_of_ne
  · intro hwhole
    obtain ⟨more, -, htail⟩ := exists_of_const_append h (hwhole.trans (List.append_nil const).symm)
    have hnil := List.append_eq_nil_iff.mp (List.append_eq_nil_iff.mp htail.symm).2
    exact h.back.nonempty hnil.2
  · intro tail htail c hc
    obtain ⟨more, hmore, rfl⟩ := exists_of_const_append h htail
    have hsome : more ≠ [] := by
      rintro rfl
      exact hne (hmore.trans (List.append_nil const))
    rw [List.head?_append_of_ne_nil _ hsome] at hc
    exact hleft more hmore c hc

/-- To write `final` for `const` brings neither a name nor a seam to the cut. -/
theorem exists_finalized_append (h : Joined seams gap left right) (hright : ¬ Starts const right)
    (hleft : left = const → gap ≠ []) (hseams : ∀ seam ∈ seams,
      (∀ c ∈ seam.1, Unicode.isBlank c = false) ∧ ¬ seam.1 <:+ "final".toList) :
    ∃ more, finalized (left ++ (gap ++ right)) = finalized left ++ (more ++ finalized right) ∧
      Joined seams more (finalized left) (finalized right) := by
  rw [finalized_of_not_starts hright]
  rcases const_cases left with rfl | ⟨blanks, rest, rfl, hne, hblanks, hhead⟩ | ⟨hne, htail⟩
  · exact exists_finalized_const h (hleft rfl) fun seam hseam => (hseams seam hseam).2
  · exact exists_finalized_ahead h hne hblanks hhead fun seam hseam => (hseams seam hseam).1
  · rw [finalized_of_ne hne htail, finalized_append_of_ne h hne htail]
    exact ⟨gap, rfl, h⟩

end Joined

/-- Words of one type between which blanks may stand, and names of templates with the bracket that
opens behind them. -/
def seams : List Seam := [("long".toList, "long".toList), ("unsigned".toList, "long".toList),
  ("unsigned".toList, "short".toList), ("unsigned".toList, "char".toList),
  ("unsigned".toList, "int".toList), ("std::vector".toList, "<".toList),
  ("std::list".toList, "<".toList), ("std::map".toList, "<".toList),
  ("std::set".toList, "<".toList), ("boost::weak_ptr".toList, "<".toList),
  ("std::weak_ptr".toList, "<".toList)]

/-- Whether a rule has no part in front of a cut and one behind it, and neither stands at a start
that is one only because of the cut. -/
structure Clear (left right : List Char) : Prop where
  names : Apart left right
  blanks : IsKept left right ∨ Apart (bare left) (bare right)
  start : ¬ Starts const (bare right)
  alone : bare left = const → IsKept left right
  seams : ∀ seam ∈ seams, ¬ (Ends seam.1 (bare left) ∧ Starts seam.2 (bare right))

instance (left right : List Char) : Decidable (Clear left right) :=
  decidable_of_iff (Apart left right ∧ (IsKept left right ∨ Apart (bare left) (bare right)) ∧
      ¬ Starts const (bare right) ∧ (bare left = const → IsKept left right) ∧
        ∀ seam ∈ seams, ¬ (Ends seam.1 (bare left) ∧ Starts seam.2 (bare right)))
    ⟨fun h => ⟨h.1, h.2.1, h.2.2.1, h.2.2.2.1, h.2.2.2.2⟩,
      fun h => ⟨h.names, h.blanks, h.start, h.alone, h.seams⟩⟩

/-- The entries of the table for types that take turns, as characters. -/
@[irreducible] def turnEntries : List (List Char × List Char) :=
  (spellings.drop 6).map (fun entry => (entry.1.toList, entry.2.toList)) ++
    scalarTypes.map (fun entry => ("(^|[^@\\w:])".toList ++ entry.1.toList ++ "\\b".toList,
      "$\x7b1\x7d".toList ++ entry.2.toList)) ++
    markedReals.map fun name => ("(^|[^@\\w:])".toList ++ name.toList ++ "\\b".toList,
      "$\x7b1\x7d/* @".toList ++ name.toList ++ " */ double".toList)

theorem seamsOf?_turnEntries : seamsOf? turnEntries = some seams := by
  simp only [turnEntries, ← chars_eq_toList]
  decide +kernel

/-- What the tables for references and for types make of a text. -/
def spelled (text : List Char) : List Char :=
  rewriteAll turnEntries (finalized (bare text))

/-- The two tables run one after the other. -/
theorem apply_types_references (text : String) :
    standard.types.apply (standard.typeReferences.apply text) =
      String.ofList (spelled text.toList) := by
  have hreferences : standard.typeReferences = tableOf typeReferences := by rw [standard]
  have hparts : spellings = spellings.take 4 ++ ([("^const$", "final"), ("^const\\s+", "final ")] ++
      spellings.drop 6) := by
    rw [spellings]
    rfl
  have htext : (String.ofList (replaceAllWith typeReferences text.toList)).toList =
      replaceAllWith typeReferences text.toList := String.toList_ofList
  rw [hreferences, apply_tableOf, ← replaceAllWith, apply_types, htext, spelled, turnEntries,
    rewriteAll, List.foldl_append, List.foldl_append, List.foldl_map, List.foldl_map,
    List.foldl_map, finalized, bare, replaceAllWith, replaceAllWith, List.foldl_append]
  conv_lhs => rw [hparts]
  rw [List.foldl_append, List.foldl_append, List.foldl_cons, List.foldl_cons, List.foldl_nil]

/-- The tables as characters, for a proof that computes. -/
theorem spelled_eq (text : List Char) : spelled text =
    rewriteAll (asChars (typeReferences ++ (spellings ++ scalars ++ markers))) text := by
  have happly := apply_types_references (String.ofList text)
  have hreferences : standard.typeReferences = tableOf typeReferences := by rw [standard]
  have htypes : standard.types = tableOf (spellings ++ scalars ++ markers) := by rw [standard]
  rw [hreferences, htypes, apply_tableOf, apply_tableOf, ← replaceAllWith, ← replaceAllWith,
    String.toList_ofList, String.toList_ofList, String.ofList_inj] at happly
  rw [← happly, ← replaceAllWith_append, replaceAllWith_eq]

theorem spelled_of_bare {text other : List Char} (h : bare text = bare other) :
    spelled text = spelled other := by rw [spelled, spelled, h]

theorem spelled_eq_nil {text : List Char} (h : bare text = []) : spelled text = [] := by
  rw [spelled, h]
  have hnil : finalized [] = [] := finalized_of_ne (by decide) (by simp [const])
  rw [hnil]
  simp only [turnEntries, ← chars_eq_toList]
  decide +kernel

section Cut

variable {left right : List Char} (hmarks : Unmarked left)
include hmarks

/-- A text that is left with nothing may be left out. -/
theorem spelled_append_of_eq_nil (hnames : Apart left right)
    (h : bare left = [] ∨ bare right = []) :
    (bare left = [] → spelled (left ++ right) = spelled right) ∧
      (bare right = [] → spelled (left ++ right) = spelled left) := by
  obtain ⟨gap, -, heq, hnil, -⟩ := exists_bare_append hmarks fun c hc hname =>
    hnames c hc (by rw [isOpen, hname]; rfl)
  rw [hnil h, List.nil_append] at heq
  refine ⟨fun hleft => spelled_of_bare ?_, fun hright => spelled_of_bare ?_⟩
  · rw [heq, hleft, List.nil_append]
  · rw [heq, hright, List.append_nil]

/-- Where the cut is clear, the whole is spelled as its halves are. -/
theorem exists_spelled_append (hclear : Clear left right) (hleft : bare left ≠ [])
    (hright : bare right ≠ []) : ∃ gap,
      spelled (left ++ right) = spelled left ++ (gap ++ spelled right) ∧
        Joined [] gap (spelled left) (spelled right) := by
  obtain ⟨gap, hblank, heq, -, hkept⟩ := exists_bare_append hmarks fun c hc hname =>
    hclear.names c hc (by rw [isOpen, hname]; rfl)
  have hjoined : Joined seams gap (bare left) (bare right) := by
    refine ⟨tidy_bare hleft, tidy_bare hright, hblank, fun hnil => ?_, hclear.seams⟩
    exact hclear.blanks.resolve_left fun hk => hkept hk hleft hright hnil
  obtain ⟨more, hfinal, hmore⟩ := exists_finalized_append hjoined hclear.start
    (fun hconst => hkept (hclear.alone hconst) hleft hright) (by decide)
  obtain ⟨hall, hdone⟩ := rewriteAll_append_of_seamsOf? seamsOf?_turnEntries hmore
  refine ⟨more, ?_, ?_⟩
  · rw [spelled, spelled, spelled, heq, hfinal]
    exact hall
  · rw [spelled, spelled]
    exact hdone

end Cut

end Standard

end ClassSkeleton.Rules
