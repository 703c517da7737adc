import ClassSkeleton.Proofs.Pattern.Literal
import ClassSkeleton.Proofs.Skeleton.UnitName
import ClassSkeleton.Proofs.Text.Occurrence
import ClassSkeleton.Proofs.Text.Outline

namespace ClassSkeleton.Text

/-!
# The innermost segment of a qualified name

A qualified name is a list of segments with `::` between them. What the name of a class keeps of
it is the last segment exactly if taking the namespace out leaves the outer segments whole and no
`::` in the arguments of the last one.
-/

/-- Where no occurrence begins in one text and ends in the next, each is substituted for
itself. -/
theorem substituteFrom_append_of_not_across {needle filler back : List Char} (text : List Char)
    (h : ∀ front rest, text = front ++ rest → rest ≠ [] → needle <+: rest ++ back →
      needle <+: rest)
    {skip : Nat} (hskip : skip ≤ text.length) :
    substituteFrom needle filler skip (text ++ back) =
      substituteFrom needle filler skip text ++ substituteFrom needle filler 0 back := by
  induction text generalizing skip with
  | nil =>
      obtain rfl := Nat.le_zero.mp hskip
      rfl
  | cons c text ih =>
      have hrest (front rest : List Char) (heq : text = front ++ rest) (hne : rest ≠ []) :=
        h (c :: front) rest (by rw [heq, List.cons_append]) hne
      cases skip with
      | succ skip => exact ih hrest (Nat.le_of_succ_le_succ hskip)
      | zero =>
          have hhere := h [] (c :: text) rfl (List.cons_ne_nil c text)
          rw [List.cons_append] at hhere
          rw [List.cons_append, substituteFrom, substituteFrom]
          simp only [List.isPrefixOf_iff_prefix]
          by_cases hfits : needle <+: c :: text
          · have hlong : needle <+: c :: (text ++ back) :=
              hfits.trans (List.prefix_append (c :: text) back)
            have hlength : needle.length - 1 ≤ text.length := by
              have := hfits.length_le
              rw [List.length_cons] at this
              omega
            rw [if_pos hlong, if_pos hfits, ih hrest hlength, List.append_assoc]
          · rw [if_neg (mt hhere hfits), if_neg hfits, ih hrest (Nat.zero_le _),
              List.cons_append]

theorem substituteFrom_of_not_occurs {needle filler text : List Char} (h : ¬ needle <:+: text) :
    substituteFrom needle filler 0 text = text := by
  induction text with
  | nil => rfl
  | cons c text ih =>
      rw [List.infix_cons_iff, not_or] at h
      rw [substituteFrom]
      simp only [List.isPrefixOf_iff_prefix, h.1, if_false]
      rw [ih h.2]

/-- To take out a text that holds none of some characters leaves all that there are of them. -/
theorem filter_substituteFrom_nil {keep : Char → Bool} {needle : List Char} (hne : needle ≠ [])
    (h : ∀ c ∈ needle, keep c = false) {skip : Nat} {text : List Char}
    (hskip : ∀ c ∈ text.take skip, keep c = false) :
    (substituteFrom needle [] skip text).filter keep = text.filter keep := by
  induction text generalizing skip with
  | nil => rfl
  | cons c text ih =>
      cases skip with
      | succ skip =>
          have hc : keep c = false := hskip c (by simp)
          rw [substituteFrom, ih fun d hd => hskip d (List.mem_cons_of_mem c hd),
            List.filter_cons_of_neg (by simp [hc])]
      | zero =>
          rw [substituteFrom]
          simp only [List.isPrefixOf_iff_prefix]
          by_cases hfits : needle <+: c :: text
          · have htaken (d : Char) (hd : d ∈ (c :: text).take needle.length) : keep d = false :=
              h d (List.prefix_iff_eq_take.mp hfits ▸ hd)
            obtain ⟨n, hn⟩ := Nat.exists_eq_succ_of_ne_zero (mt List.length_eq_zero_iff.mp hne)
            rw [hn, List.take_succ_cons] at htaken
            have hc : keep c = false := htaken c List.mem_cons_self
            rw [if_pos hfits, List.nil_append, hn, Nat.succ_sub_one,
              ih fun d hd => htaken d (List.mem_cons_of_mem c hd),
              List.filter_cons_of_neg (by simp [hc])]
          · rw [if_neg hfits, List.filter_cons, List.filter_cons, ih (by simp)]

section LastPart

variable {sep text : List Char}

theorem afterLast_cons_of_starts {c : Char} {rest : List Char} (hrest : c :: text = sep ++ rest)
    (found : List Char) : afterLast sep found (c :: text) = afterLast sep rest text := by
  have h : sep <+: c :: text := ⟨rest, hrest.symm⟩
  rw [afterLast]
  simp only [List.isPrefixOf_iff_prefix, h, if_true]
  rw [hrest, List.drop_left]

theorem afterLast_cons_of_not_starts {c : Char} (h : ¬ sep <+: c :: text) (found : List Char) :
    afterLast sep found (c :: text) = afterLast sep found text := by
  rw [afterLast]
  simp only [List.isPrefixOf_iff_prefix, h, if_false]

theorem afterLast_of_not_occurs (h : ¬ sep <:+: text) (found : List Char) :
    afterLast sep found text = found := by
  induction text with
  | nil => rfl
  | cons c text ih =>
      rw [List.infix_cons_iff, not_or] at h
      rw [afterLast_cons_of_not_starts h.1, ih h.2]

/-- What is found stands behind an occurrence, and no occurrence stands in it. -/
theorem afterLast_cases (hsep : sep ≠ []) (found text : List Char) :
    afterLast sep found text = found ∧ ¬ sep <:+: text ∨
      ∃ front, text = front ++ afterLast sep found text ∧ sep <:+ front ∧
        ¬ sep <:+: afterLast sep found text := by
  induction text generalizing found with
  | nil => exact Or.inl ⟨rfl, fun h => hsep (List.infix_nil.mp h)⟩
  | cons c text ih =>
      by_cases hfits : sep <+: c :: text
      · obtain ⟨rest, hrest⟩ := hfits
        rw [afterLast_cons_of_starts hrest.symm]
        rcases ih rest with ⟨hfound, hnone⟩ | ⟨front, htext, hfront, hnone⟩
        · obtain ⟨d, tail, rfl⟩ := List.exists_cons_of_ne_nil hsep
          have hsuffix : rest <:+ text := ⟨tail, (List.cons.inj hrest).2⟩
          rw [hfound]
          exact Or.inr ⟨d :: tail, hrest.symm, List.suffix_rfl,
            fun h => hnone (h.trans hsuffix.isInfix)⟩
        · refine Or.inr ⟨c :: front, ?_, hfront.trans (List.suffix_cons c front), hnone⟩
          rw [List.cons_append, ← htext]
      · rw [afterLast_cons_of_not_starts hfits]
        rcases ih found with ⟨hfound, hnone⟩ | ⟨front, htext, hfront, hnone⟩
        · refine Or.inl ⟨hfound, ?_⟩
          rw [List.infix_cons_iff, not_or]
          exact ⟨hfits, hnone⟩
        · refine Or.inr ⟨c :: front, ?_, hfront.trans (List.suffix_cons c front), hnone⟩
          rw [List.cons_append, ← htext]

theorem lastPart_cases (hsep : sep ≠ []) (text : List Char) :
    ∃ front, text = front ++ lastPart sep text ∧ (front = [] ∨ sep <:+ front) ∧
      ¬ sep <:+: lastPart sep text := by
  rcases afterLast_cases hsep text text with ⟨hall, hnone⟩ | ⟨front, htext, hfront, hnone⟩
  · have hlast : lastPart sep text = text := hall
    exact ⟨[], by rw [hlast, List.nil_append], Or.inl rfl, by rwa [hlast]⟩
  · exact ⟨front, htext, Or.inr hfront, hnone⟩

theorem lastPart_append {c : Char} {front last : List Char} (hc : c ∉ sep)
    (hfront : sep <:+ front) (hsep : sep ≠ []) (hlast : ¬ sep <:+: c :: last) :
    lastPart sep (front ++ c :: last) = c :: last := by
  obtain ⟨before, rfl⟩ := hfront
  obtain ⟨d, tail, rfl⟩ := List.exists_cons_of_ne_nil hsep
  have hfound (found : List Char) :
      afterLast (d :: tail) found (before ++ (d :: tail) ++ c :: last) = c :: last := by
    induction before generalizing found with
    | nil =>
        have hnone : ¬ d :: tail <:+: tail ++ c :: last := by
          rw [infix_append_cons_iff hc, not_or]
          refine ⟨fun h => ?_, fun h => hlast (h.trans (List.suffix_cons c last).isInfix)⟩
          exact absurd h.length_le (by simp)
        rw [List.nil_append, List.cons_append,
          afterLast_cons_of_starts (by rfl), afterLast_of_not_occurs hnone]
    | cons b before ih => exact ih _
  exact hfound _

end LastPart

end ClassSkeleton.Text

namespace ClassSkeleton.Skeleton

open Text

/-- The characters that divide a qualified name. -/
def dividers : List Char := [':', '<', '>']

/-- One segment of a qualified name: an identifier, which template arguments may follow. -/
structure Segment where
  ident : List Char
  arguments : Option (List Char)
  nonempty : ident ≠ []
  undivided : ∀ c ∈ ident, c ∉ dividers
  settled : ∀ inside ∈ arguments, Settles .angle inside

namespace Segment

/-- The template arguments with the brackets around them. -/
def suffix (s : Segment) : List Char :=
  match s.arguments with
  | none => []
  | some inside => '<' :: (inside ++ ['>'])

def spelling (s : Segment) : List Char := s.ident ++ s.suffix

/-- The segments that stand before the last one, each with its `::`. -/
def scope (outer : List Segment) : List Char :=
  outer.flatMap fun s => s.spelling ++ [':', ':']

theorem settles_suffix (s : Segment) : Settles .angle s.suffix := by
  cases h : s.arguments with
  | none =>
      rw [suffix, h]
      exact Settles.nil .angle
  | some inside =>
      rw [suffix, h]
      exact (s.settled inside h).enclose

theorem suffix_cases (s : Segment) :
    s.suffix = [] ∨ ∃ inside, s.suffix = '<' :: (inside ++ ['>']) := by
  cases h : s.arguments with
  | none => exact Or.inl (by rw [suffix, h])
  | some inside => exact Or.inr ⟨inside, by rw [suffix, h]⟩

end Segment

namespace Rewriting

/-- What `stripNamespace` does to the characters of a name. -/
def strip (w : Rewriting) (text : List Char) : List Char :=
  if w.ns.isEmpty then text else substitute (w.ns.toList ++ [':', ':']) [] text

section Strip

variable (w : Rewriting)

theorem toList_stripNamespace (name : String) :
    (w.stripNamespace name).toList = w.strip name.toList := by
  rw [stripNamespace, strip]
  split
  · rfl
  · rw [String.toList_ofList]

theorem strip_sublist (text : List Char) : (w.strip text).Sublist text := by
  rw [strip]
  split
  · exact List.Sublist.refl text
  · exact substituteFrom_nil_sublist _ 0 text

/-- A text that the namespace and its `::` do not enter is passed over. -/
theorem strip_append_of_not_across {text back : List Char}
    (h : ∀ front rest, text = front ++ rest → rest ≠ [] →
      w.ns.toList ++ [':', ':'] <+: rest ++ back → w.ns.toList ++ [':', ':'] <+: rest) :
    w.strip (text ++ back) = w.strip text ++ w.strip back := by
  rw [strip, strip, strip]
  split
  · rfl
  · exact substituteFrom_append_of_not_across text h (Nat.zero_le _)

variable {w : Rewriting} (hns : ∀ c ∈ w.ns.toList, c ≠ '<' ∧ c ≠ '>')
include hns

theorem notMem_needle : '<' ∉ w.ns.toList ++ [':', ':'] ∧ '>' ∉ w.ns.toList ++ [':', ':'] := by
  simp only [List.mem_append, not_or]
  exact ⟨⟨fun h => (hns _ h).1 rfl, by decide⟩, ⟨fun h => (hns _ h).2 rfl, by decide⟩⟩

theorem settles_strip {text : List Char} (h : Settles .angle text) :
    Settles .angle (w.strip text) := by
  rw [strip]
  split
  · exact h
  · let keep (c : Char) : Bool := c = '<' ∨ c = '>'
    have hneedle (c : Char) (hc : c ∈ w.ns.toList ++ [':', ':']) : keep c = false := by
      rw [decide_eq_false_iff_not, not_or]
      constructor
      · rintro rfl
        exact (notMem_needle hns).1 hc
      · rintro rfl
        exact (notMem_needle hns).2 hc
    have hkept : (substitute (w.ns.toList ++ [':', ':']) [] text).filter keep =
        text.filter keep := filter_substituteFrom_nil (by simp) hneedle (by simp)
    exact h.of_filter (by decide) (by decide) hkept.symm

/-- The namespace is taken out of the scope and of the arguments, each for itself. -/
theorem strip_spelling (outer : List Segment) (last : Segment) :
    w.strip (Segment.scope outer ++ last.spelling) =
      w.strip (Segment.scope outer) ++ (last.ident ++ w.strip last.suffix) := by
  have hcolon : ':' ∉ last.ident := fun h => last.undivided _ h (by decide)
  have hident : w.strip last.ident = last.ident := by
    rw [strip]
    split
    · rfl
    · refine substituteFrom_of_not_occurs fun h => hcolon ?_
      exact h.subset (by simp)
  -- An occurrence that reached the arguments would hold their bracket.
  have hsuffix {rest : List Char} (h : w.ns.toList ++ [':', ':'] <+: rest ++ last.suffix) :
      w.ns.toList ++ [':', ':'] <+: rest := by
    rcases last.suffix_cases with hnone | ⟨inside, hsome⟩
    · rwa [hnone, List.append_nil] at h
    · rw [hsome] at h
      exact prefix_of_prefix_append (notMem_needle hns).1 h
  rw [Segment.spelling, w.strip_append_of_not_across, w.strip_append_of_not_across, hident]
  · rintro front rest - - h
    exact hsuffix h
  · rintro front rest - - h
    rw [← List.append_assoc] at h
    have hfront := hsuffix h
    have hneedle : w.ns.toList ++ [':', ':'] = w.ns.toList ++ [':'] ++ [':'] := by simp
    rw [hneedle] at hfront ⊢
    exact prefix_of_concat_prefix_append hcolon hfront

/-- The last segment never ends in a colon. -/
theorem innermost_concat (last : Segment) :
    ∃ init d, last.ident ++ w.strip last.suffix = init ++ [d] ∧ d ≠ ':' := by
  rcases last.suffix_cases with hnone | ⟨inside, hsome⟩
  · obtain ⟨init, d, hident⟩ := (List.eq_nil_or_concat' last.ident).resolve_left last.nonempty
    have hempty : w.strip [] = [] := List.sublist_nil.mp (w.strip_sublist [])
    refine ⟨init, d, by rw [hnone, hempty, List.append_nil, hident], ?_⟩
    rintro rfl
    exact last.undivided ':' (by rw [hident]; simp) (by decide)
  · have hone : w.strip ['>'] = ['>'] := by
      rw [strip]
      split
      · rfl
      · refine substituteFrom_of_not_occurs fun h => ?_
        simpa using h.length_le
    have hclose : w.strip last.suffix = w.strip ('<' :: inside) ++ ['>'] := by
      rw [hsome, ← List.cons_append, w.strip_append_of_not_across, hone]
      rintro front rest - - h
      exact prefix_of_prefix_append (notMem_needle hns).2 h
    exact ⟨last.ident ++ w.strip ('<' :: inside), '>', by rw [hclose, List.append_assoc],
      by decide⟩

/-- Something is left behind the last `::`, so the name is never taken whole. -/
theorem className_eq_lastPart (outer : List Segment) (last : Segment) :
    (w.className (String.ofList (Segment.scope outer ++ last.spelling))).toList =
      lastPart [':', ':'] (w.strip (Segment.scope outer) ++
        (last.ident ++ w.strip last.suffix)) := by
  have hstripped : (w.stripNamespace
      (String.ofList (Segment.scope outer ++ last.spelling))).toList =
        w.strip (Segment.scope outer) ++ (last.ident ++ w.strip last.suffix) := by
    rw [toList_stripNamespace, String.toList_ofList, strip_spelling hns]
  rw [className, hstripped]
  split
  · next hempty =>
      obtain ⟨init, d, hinit, hd⟩ := innermost_concat hns last
      obtain ⟨front, hfront, hcases, -⟩ := lastPart_cases
        (List.cons_ne_nil ':' [':']) (w.strip (Segment.scope outer) ++
          (last.ident ++ w.strip last.suffix))
      rw [List.isEmpty_iff.mp hempty, List.append_nil, hinit, ← List.append_assoc] at hfront
      rcases hcases with rfl | ⟨tail, htail⟩
      · simp at hfront
      · rw [← hfront, show tail ++ [':', ':'] = tail ++ [':'] ++ [':'] by simp] at htail
        obtain ⟨-, hlast⟩ := List.append_inj' htail rfl
        exact absurd (List.singleton_inj.mp hlast).symm hd
  · rw [String.toList_ofList]

end Strip

/-- The name of a class is the last segment of the qualified name, less the namespace in its
arguments, exactly if taking the namespace out of the scope leaves nothing or whole segments, and
no `::` is left in the arguments. Then its brackets are balanced. -/
theorem className_eq_innermost_iff (w : Rewriting)
    (hns : ∀ c ∈ w.ns.toList, c ≠ '<' ∧ c ≠ '>') (outer : List Segment) (last : Segment) :
    let kept := w.strip (Segment.scope outer)
    let name := w.className (String.ofList (Segment.scope outer ++ last.spelling))
    (name.toList = last.ident ++ w.strip last.suffix ↔
        (kept = [] ∨ [':', ':'] <:+ kept) ∧ ¬ [':', ':'] <:+: w.strip last.suffix) ∧
      (name.toList = last.ident ++ w.strip last.suffix → Settles .angle name.toList) := by
  intro kept name
  have hcolon : ':' ∉ last.ident := fun h => last.undivided _ h (by decide)
  have hname : name.toList = lastPart [':', ':'] (kept ++ (last.ident ++ w.strip last.suffix)) :=
    className_eq_lastPart hns outer last
  have hoccurs : [':', ':'] <:+: last.ident ++ w.strip last.suffix ↔
      [':', ':'] <:+: w.strip last.suffix := infix_append_iff_of_notMem hcolon
  refine ⟨⟨?_, ?_⟩, ?_⟩
  · intro h
    obtain ⟨front, hfront, hcases, hnone⟩ := lastPart_cases
      (List.cons_ne_nil ':' [':']) (kept ++ (last.ident ++ w.strip last.suffix))
    rw [← hname, h] at hfront hnone
    obtain rfl := List.append_cancel_right hfront
    exact ⟨hcases, mt hoccurs.mpr hnone⟩
  · rintro ⟨hkept, hnone⟩
    have hwhole := mt hoccurs.mp hnone
    rw [hname]
    rcases hkept with hempty | hborder
    · rw [hempty, List.nil_append]
      exact afterLast_of_not_occurs hwhole _
    · obtain ⟨c, ident, hident⟩ := List.exists_cons_of_ne_nil last.nonempty
      have hc : c ∉ [':', ':'] := by
        intro hmem
        exact hcolon (by simp_all)
      rw [hident, List.cons_append] at hwhole ⊢
      exact lastPart_append hc hborder (List.cons_ne_nil _ _) hwhole
  · intro h
    rw [h]
    have hplain : Settles .angle last.ident := by
      apply Settles.of_forall_not
      intro d hd
      constructor
      · rintro rfl
        exact last.undivided _ hd (by decide)
      · rintro rfl
        exact last.undivided _ hd (by decide)
    exact hplain.append (settles_strip hns last.settles_suffix)

/-- The namespace stands in the scope and in the arguments. -/
theorem className_eq_innermost_handle :
    let w : Rewriting := ⟨Rules.standard, "QuantLib"⟩
    let lib : Segment := ⟨"QuantLib".toList, none, by decide, by decide, by simp⟩
    let handle : Segment := ⟨"Handle".toList, some "QuantLib::Quote".toList, by decide, by decide,
      by rintro _ ⟨⟩; decide⟩
    let name := w.className (String.ofList (Segment.scope [lib] ++ handle.spelling))
    (∀ c ∈ w.ns.toList, c ≠ '<' ∧ c ≠ '>') ∧
      Segment.scope [lib] ++ handle.spelling = "QuantLib::Handle<QuantLib::Quote>".toList ∧
      name = "Handle<Quote>" ∧ Settles .angle name.toList := by
  intro w lib handle name
  have hns : ∀ c ∈ w.ns.toList, c ≠ '<' ∧ c ≠ '>' := by decide
  obtain ⟨hiff, hsettles⟩ := className_eq_innermost_iff w hns [lib] handle
  have hname : name.toList = handle.ident ++ w.strip handle.suffix :=
    hiff.mpr ⟨Or.inl (by decide +kernel), by decide +kernel⟩
  have hwhole : handle.ident ++ w.strip handle.suffix = "Handle<Quote>".toList := by
    decide +kernel
  exact ⟨hns, by decide +kernel, String.toList_inj.mp (hname.trans hwhole), hsettles hname⟩

/-- A namespace that is the tail of an identifier is taken out of it, and a `::` in the arguments
is taken for one between segments. -/
theorem className_not_innermost :
    let w : Rewriting := ⟨Rules.standard, "Lib"⟩
    let plain (ident : List Char) (hne : ident ≠ []) (h : ∀ c ∈ ident, c ∉ dividers) : Segment :=
      ⟨ident, none, hne, h, by simp⟩
    let lib := plain "QuantLib".toList (by decide) (by decide)
    let foo := plain "Foo".toList (by decide) (by decide)
    let a := plain "A".toList (by decide) (by decide)
    let b : Segment := ⟨"B".toList, some "C::D".toList, by decide, by decide,
      by rintro _ ⟨⟩; decide⟩
    (Segment.scope [lib] ++ foo.spelling = "QuantLib::Foo".toList ∧
      w.className "QuantLib::Foo" = "QuantFoo" ∧
      foo.ident ++ w.strip foo.suffix = "Foo".toList) ∧
    Segment.scope [a] ++ b.spelling = "A::B<C::D>".toList ∧
      w.className "A::B<C::D>" = "D>" ∧ ¬ Settles .angle "D>".toList ∧
      b.ident ++ w.strip b.suffix = "B<C::D>".toList := by
  refine ⟨⟨?_, ?_, ?_⟩, ?_, ?_, ?_, ?_⟩ <;> decide +kernel

end Rewriting

end ClassSkeleton.Skeleton
