import ClassSkeleton.Proofs.Rules.Joints
import ClassSkeleton.Proofs.Text.Outline

namespace ClassSkeleton.Rules

/-!
# Texts that differ in blanks

Two texts of the same signs may have blanks at different places, but not where a name goes on or
could go on once brackets are taken off. Then the rules for wrappers take the same signs from both.
-/

open Pattern Text

/-- Whether two texts behind a character have the same signs, and blanks in front of the same ones
where a name starts behind what is open. -/
inductive Aligned : Option Char → List Char → List Char → Prop
  | blank {prev : Option Char} {first second : List Char}
      (hfirst : ∀ c ∈ first, Unicode.isBlank c = true)
      (hsecond : ∀ c ∈ second, Unicode.isBlank c = true) : Aligned prev first second
  | sign {prev : Option Char} {c : Char} {gap other first second : List Char}
      (hgap : ∀ d ∈ gap, Unicode.isBlank d = true) (hother : ∀ d ∈ other, Unicode.isBlank d = true)
      (hc : Unicode.isBlank c = false)
      (hedge : (gap = [] ↔ other = []) ∨
        (isNameChar c = true → ∀ p ∈ prev, isOpen p = false))
      (tail : Aligned (some c) first second) :
      Aligned prev (gap ++ c :: first) (other ++ c :: second)

namespace Aligned

variable {prev : Option Char} {first second : List Char}

theorem symm (h : Aligned prev first second) : Aligned prev second first := by
  induction h with
  | blank hfirst hsecond => exact .blank hsecond hfirst
  | sign hgap hother hc hedge _ ih => exact .sign hother hgap hc (hedge.imp_left Iff.symm) ih

theorem cons_of_isBlank {c : Char} (hc : Unicode.isBlank c = true) (h : Aligned prev first second) :
    Aligned prev (c :: first) (c :: second) := by
  cases h with
  | blank hfirst hsecond =>
      exact .blank (List.forall_mem_cons.mpr ⟨hc, hfirst⟩) (List.forall_mem_cons.mpr ⟨hc, hsecond⟩)
  | sign hgap hother hd _ tail =>
      rw [← List.cons_append, ← List.cons_append]
      exact .sign (List.forall_mem_cons.mpr ⟨hc, hgap⟩) (List.forall_mem_cons.mpr ⟨hc, hother⟩) hd
        (Or.inl (by simp)) tail

theorem cons {c : Char} (hc : Unicode.isBlank c = false) (h : Aligned (some c) first second) :
    Aligned prev (c :: first) (c :: second) := by
  have hsign : Aligned prev ([] ++ c :: first) ([] ++ c :: second) :=
    .sign nofun nofun hc (Or.inl Iff.rfl) h
  exact hsign

theorem refl (prev : Option Char) (text : List Char) : Aligned prev text text := by
  induction text generalizing prev with
  | nil => exact .blank nofun nofun
  | cons c text ih =>
      cases hc : Unicode.isBlank c with
      | true => exact (ih prev).cons_of_isBlank hc
      | false => exact (ih (some c)).cons hc

/-- A text that ends with no blank may stand in front of both. -/
theorem append_left {text : List Char} (htext : ∀ c ∈ text.getLast?, Unicode.isBlank c = false)
    (h : Aligned (text.getLast?.or prev) first second) :
    Aligned prev (text ++ first) (text ++ second) := by
  induction text generalizing prev with
  | nil => exact h
  | cons c text ih =>
      have hrest : ∀ d ∈ text.getLast?, Unicode.isBlank d = false := by
        intro d hd
        refine htext d ?_
        rw [List.getLast?_cons, Option.mem_def.mp hd]
        rfl
      cases hc : Unicode.isBlank c with
      | false =>
          rw [getLast?_cons_or] at h
          exact (ih hrest h).cons hc
      | true =>
          rcases text.eq_nil_or_concat with rfl | ⟨front, d, rfl⟩
          · rw [htext c rfl] at hc
            cases hc
          · refine (ih hrest ?_).cons_of_isBlank hc
            rw [getLast?_cons_or] at h
            simpa using h

/-- The same signs stand in both texts. -/
theorem filter_eq (h : Aligned prev first second) {keep : Char → Bool}
    (hkeep : ∀ {c}, Unicode.isBlank c = true → keep c = false) :
    first.filter keep = second.filter keep := by
  have hnone {blanks : List Char} (hblanks : ∀ c ∈ blanks, Unicode.isBlank c = true) :
      blanks.filter keep = [] := by
    rw [List.filter_eq_nil_iff]
    intro c hc
    rw [hkeep (hblanks c hc)]
    exact Bool.false_ne_true
  induction h with
  | blank hfirst hsecond => rw [hnone hfirst, hnone hsecond]
  | sign hgap hother _ _ _ ih =>
      rw [List.filter_append, List.filter_append, hnone hgap, hnone hother, List.filter_cons,
        List.filter_cons, ih]

/-- What stands behind something open may stand behind anything. -/
theorem of_isOpen {p : Char} (hp : isOpen p = true) (h : Aligned (some p) first second)
    (other : Option Char) : Aligned other first second := by
  generalize hprev : some p = prev at h
  cases h with
  | blank hfirst hsecond => exact .blank hfirst hsecond
  | sign hgap hother hc hedge tail =>
      refine .sign hgap hother hc (hedge.imp_right fun hname hn => ?_) tail
      rw [hname hn p (hprev ▸ rfl)] at hp
      cases hp

/-- In front of a sign of one text both have blanks, and then the sign. -/
theorem exists_of_cons {c : Char} {gap : List Char} (hgap : ∀ d ∈ gap, Unicode.isBlank d = true)
    (hc : Unicode.isBlank c = false) (h : Aligned prev (gap ++ c :: first) second) :
    ∃ other rest, second = other ++ c :: rest ∧ (∀ d ∈ other, Unicode.isBlank d = true) ∧
      ((gap = [] ↔ other = []) ∨ (isNameChar c = true → ∀ p ∈ prev, isOpen p = false)) ∧
      Aligned (some c) first rest := by
  generalize htext : gap ++ c :: first = text at h
  cases h with
  | blank hfirst _ =>
      rw [← htext] at hfirst
      have hblank := hfirst c (List.mem_append_right gap List.mem_cons_self)
      rw [hc] at hblank
      cases hblank
  | @sign _ d gap' other first' second' hgap' hother hd hedge tail =>
      obtain ⟨rfl, hrest⟩ :=
        append_inj_of_forall (p := Unicode.isBlank) htext hgap (by simpa using hc)
        hgap' (by simpa using hd)
      obtain ⟨rfl, rfl⟩ := List.cons.inj hrest
      exact ⟨other, second', rfl, hother, hedge, tail⟩

/-- The same where blanks stand in front of the second text too. -/
theorem exists_of_gap {c : Char} {gap other after : List Char}
    (hgap : ∀ d ∈ gap, Unicode.isBlank d = true) (hother : ∀ d ∈ other, Unicode.isBlank d = true)
    (hc : Unicode.isBlank c = false) (h : Aligned prev (gap ++ c :: first) (other ++ after)) :
    ∃ blanks rest, after = blanks ++ c :: rest ∧ (∀ d ∈ blanks, Unicode.isBlank d = true) ∧
      ((gap = [] ↔ other ++ blanks = []) ∨ (isNameChar c = true → ∀ p ∈ prev, isOpen p = false)) ∧
      Aligned (some c) first rest := by
  obtain ⟨front, rest, hparts, hfront, hedge, htail⟩ := h.exists_of_cons hgap hc
  rcases List.append_eq_append_iff.mp hparts with ⟨blanks, rfl, hafter⟩ | ⟨extra, rfl, hrest⟩
  · exact ⟨blanks, rest, hafter, (List.forall_mem_append.mp hfront).2, hedge, htail⟩
  · rcases extra with _ | ⟨d, extra⟩
    · refine ⟨[], rest, hrest.symm, nofun, ?_, htail⟩
      rwa [List.append_nil, List.append_nil]
    · obtain ⟨rfl, -⟩ := List.cons.inj hrest
      rw [hother c (by simp)] at hc
      cases hc

/-- A name that goes on in one text goes on in the other. -/
theorem exists_of_name {c : Char} {name : List Char} (hc : isNameChar c = true)
    (hname : ∀ d ∈ name, isNameChar d = true) (h : Aligned (some c) (name ++ first) second) :
    ∃ d rest, isNameChar d = true ∧ second = name ++ rest ∧ Aligned (some d) first rest := by
  induction name generalizing c second with
  | nil => exact ⟨c, second, hc, rfl, h⟩
  | cons d name ih =>
      obtain ⟨hd, hrest⟩ := List.forall_mem_cons.mp hname
      have hstart : Aligned (some c) ([] ++ d :: (name ++ first)) second := h
      obtain ⟨other, rest, rfl, -, hedge, htail⟩ :=
        hstart.exists_of_cons (by simp) (not_isBlank_of_isNameChar hd)
      have hopen : isOpen c = true := by rw [isOpen, hc]; rfl
      have hnil : other = [] := by
        rcases hedge with hiff | hnot
        · exact hiff.mp rfl
        · rw [hnot hd c rfl] at hopen
          cases hopen
      obtain ⟨e, more, he, rfl, hmore⟩ := ih hd hrest htail
      exact ⟨e, more, he, by rw [hnil]; rfl, hmore⟩

/-- A sign that stands in one text stands in the other, and divides both alike. -/
theorem exists_of_append {c : Char} {front : List Char} (hc : Unicode.isBlank c = false)
    (h : Aligned prev (front ++ c :: first) second) :
    ∃ other rest, second = other ++ c :: rest ∧ Aligned prev front other ∧
      Aligned (some c) first rest := by
  generalize htext : front ++ c :: first = text at h
  induction h generalizing front with
  | blank hfirst _ =>
      rw [← htext] at hfirst
      have hblank := hfirst c (List.mem_append_right front List.mem_cons_self)
      rw [hc] at hblank
      cases hblank
  | @sign prev d gap other first' second' hgap hother hd hedge tail ih =>
      rcases List.append_eq_append_iff.mp htext with ⟨extra, rfl, hrest⟩ | ⟨extra, rfl, hrest⟩
      · rcases extra with _ | ⟨e, extra⟩
        · obtain ⟨rfl, rfl⟩ := List.cons.inj hrest
          rw [List.append_nil] at hgap hedge
          exact ⟨other, second', rfl, .blank hgap hother, tail⟩
        · obtain ⟨rfl, -⟩ := List.cons.inj hrest
          have hblank := hgap c (List.mem_append_right front List.mem_cons_self)
          rw [hc] at hblank
          cases hblank
      · rcases extra with _ | ⟨e, extra⟩
        · obtain ⟨rfl, rfl⟩ := List.cons.inj hrest
          rw [List.append_nil]
          exact ⟨other, second', rfl, .blank hgap hother, tail⟩
        · obtain ⟨rfl, hbehind⟩ := List.cons.inj hrest
          obtain ⟨other', rest, rfl, hfront, hrest⟩ := ih hbehind.symm
          exact ⟨other ++ d :: other', rest, by simp, .sign hgap hother hd hedge hfront, hrest⟩

/-- Blanks at the end of what stands in brackets may go. -/
theorem trimEnd_append {first' second' : List Char} (h : Aligned prev first second)
    (htail : Aligned (some '>') first' second') :
    Aligned prev (trimEnd first ++ first') (trimEnd second ++ second') := by
  have hnil {blanks : List Char} (hblanks : ∀ c ∈ blanks, Unicode.isBlank c = true) :
      trimEnd blanks = [] := Text.trimEnd_append_blanks hblanks []
  induction h with
  | blank hfirst hsecond =>
      rw [hnil hfirst, hnil hsecond]
      exact htail.of_isOpen (by decide) _
  | sign hgap hother hc hedge _ ih =>
      rw [trimEnd_append_cons hc, trimEnd_append_cons hc, List.append_assoc, List.append_assoc]
      exact .sign hgap hother hc hedge ih

/-- What stands in brackets is still aligned when it has been trimmed and the brackets are gone. -/
theorem splice {inside inside' tail tail' gap other : List Char}
    (hinside : Aligned (some '<') inside inside') (htail : Aligned (some '>') tail tail')
    (hgap : ∀ c ∈ gap, Unicode.isBlank c = true) (hother : ∀ c ∈ other, Unicode.isBlank c = true)
    (hedge : (gap = [] ↔ other = []) ∨ ∀ p ∈ prev, isOpen p = false) :
    Aligned prev (gap ++ (trim inside ++ tail)) (other ++ (trim inside' ++ tail')) := by
  cases hinside with
  | blank hfirst hsecond =>
      rw [(trim_eq_nil_iff _).mpr hfirst, (trim_eq_nil_iff _).mpr hsecond, List.nil_append,
        List.nil_append]
      generalize hprev : some '>' = opener at htail
      cases htail with
      | blank hfirst hsecond =>
          exact .blank (List.forall_mem_append.mpr ⟨hgap, hfirst⟩)
            (List.forall_mem_append.mpr ⟨hother, hsecond⟩)
      | @sign _ c gap' other' _ _ hgap' hother' hc hedge' tail =>
          rw [← List.append_assoc, ← List.append_assoc]
          refine .sign (List.forall_mem_append.mpr ⟨hgap, hgap'⟩)
            (List.forall_mem_append.mpr ⟨hother, hother'⟩) hc ?_ tail
          rw [List.append_eq_nil_iff, List.append_eq_nil_iff]
          rcases hedge' with hiff | hname
          · exact hedge.imp (fun h => and_congr h hiff) fun h _ => h
          · refine Or.inr fun hn => ?_
            exact absurd (hname hn '>' (hprev ▸ rfl)) (by decide)
  | @sign _ c gap' other' first second hgap' hother' hc _ hrest =>
      have htrim {blanks text : List Char} (hblanks : ∀ d ∈ blanks, Unicode.isBlank d = true) :
          trim (blanks ++ c :: text) = c :: trimEnd text := by
        rw [trim, trimStart_append hblanks (by simpa using hc)]
        exact trimEnd_append_cons hc [] text
      rw [htrim hgap', htrim hother', List.cons_append, List.cons_append]
      exact .sign hgap hother hc (hedge.imp_right fun h _ => h) (hrest.trimEnd_append htail)

theorem forall_isBlank (h : Aligned prev first second)
    (hfirst : ∀ c ∈ first, Unicode.isBlank c = true) : ∀ c ∈ second, Unicode.isBlank c = true := by
  cases h with
  | blank _ hsecond => exact hsecond
  | @sign _ c gap other first second _ _ hc =>
      have hblank := hfirst c (List.mem_append_right gap List.mem_cons_self)
      rw [hc] at hblank
      cases hblank

end Aligned

/-- Whether every angle bracket that is opened in a text is closed in it. -/
def Closed (text : List Char) : Prop := ∀ back, back <:+ text → depth .angle back ≤ 0

namespace Closed

variable {text : List Char}

theorem of_settles (h : Settles .angle text) : Closed text := by
  rintro back ⟨front, rfl⟩
  have hfront := h.nonneg front back rfl
  have hall := h.settled
  rw [depth_append] at hall
  omega

theorem of_isSuffix {back : List Char} (h : Closed text) (hback : back <:+ text) : Closed back :=
  fun _ hrest => h _ (hrest.trans hback)

/-- A bracket that is opened is closed, and what it encloses is balanced. -/
theorem exists_inside {rest : List Char} (h : Closed ('<' :: rest)) :
    ∃ inside tail, rest = inside ++ '>' :: tail ∧ Settles .angle inside := by
  cases hcut : cutAtClose? 0 rest with
  | some found =>
      obtain ⟨inside, tail⟩ := found
      exact ⟨inside, tail, cutAtClose?_eq_append hcut, settles_of_cutAtClose? hcut⟩
  | none =>
      have hrest := nonneg_of_cutAtClose?_eq_none hcut
      have hall := h _ List.suffix_rfl
      have hopen : depth .angle ['<'] = 1 := by decide
      rw [depth_cons, hopen] at hall
      omega

theorem splice {inside tail : List Char} (htail : Closed tail) (hinside : Settles .angle inside) :
    Closed (trim inside ++ tail) := by
  have htrim : Settles .angle (trim inside) := hinside.of_outline (outline_trim inside).symm
  rintro back ⟨front, hparts⟩
  rcases List.append_eq_append_iff.mp hparts with ⟨extra, hall, rfl⟩ | ⟨extra, -, hrest⟩
  · have hextra := of_settles htrim extra ⟨front, hall.symm⟩
    have hbehind := htail tail List.suffix_rfl
    rw [depth_append]
    omega
  · exact htail back ⟨extra, hrest.symm⟩

end Closed

/-- Whether a finder finds nothing in the middle of a word. -/
def IsEdged (find : Finder) : Prop :=
  ∀ before after m, find before after = some m → before.head?.any Unicode.isWord = false

theorem isEdged_of_openerNames? {x : Node} {names : List (List Char)}
    (h : x.openerNames? = some names)
    (hworded : ∀ name ∈ names, name.head?.any Unicode.isWord = true) : IsEdged x.matchAt? := by
  intro before after m hm
  obtain ⟨text, rest, recorded, rfl, rfl, htakes⟩ := Node.exists_takes_of_matchAt? hm
  obtain ⟨name, hname, gap, hgap, rfl, -, hedge⟩ := (Node.takes_iff_of_openerNames? h).mp htakes
  have hhead := hworded name hname
  rcases name with _ | ⟨c, name⟩
  · cases hhead
  · have hc : Unicode.isWord c = true := hhead
    have hleft : before.head?.any (Look.isWord false) = false := by
      simpa [Node.atEdge, Look.holds, Look.isWord, hc] using hedge
    exact hleft

section Unwrapping

variable {find : Finder} {names : List (List Char)}

theorem Opens.isNameChar_of_cons (h : Opens find names) {name text rest : List Char} {c : Char}
    (hname : name ∈ names) (htext : c :: text = name ++ rest) : isNameChar c = true := by
  rcases name with _ | ⟨d, name⟩
  · exact absurd hname h.nil_notMem
  · obtain ⟨rfl, -⟩ := List.cons.inj htext
    exact h.spelled _ hname c List.mem_cons_self

/-- An opener of one text is an opener of the other. -/
theorem Opens.exists_of_aligned (h : Opens find names) (hedged : IsEdged find)
    {before before' gap other first second : List Char} {prev : Option Char} {c : Char} {m : Match}
    (hbefore : before.head? = gap.getLast?.or prev)
    (hbefore' : before'.head? = other.getLast?.or prev)
    (hother : ∀ d ∈ other, Unicode.isBlank d = true)
    (hedge : (gap = [] ↔ other = []) ∨ (isNameChar c = true → ∀ p ∈ prev, isOpen p = false))
    (htail : Aligned (some c) first second) (hm : find before (c :: first) = some m) :
    ∃ name ∈ names, ∃ blanks blanks' rest rest', (∀ d ∈ blanks, Unicode.isBlank d = true) ∧
      (∀ d ∈ blanks', Unicode.isBlank d = true) ∧
      c :: first = name ++ (blanks ++ '<' :: rest) ∧
      c :: second = name ++ (blanks' ++ '<' :: rest') ∧ Aligned (some '<') rest rest' ∧
      before.head?.any Unicode.isWord = false ∧ before'.head?.any Unicode.isWord = false := by
  obtain ⟨name, hname, blanks, rest, hblanks, htext, -⟩ := h.found hm
  have hfirst := hedged before _ m hm
  rcases name with _ | ⟨d, name⟩
  · exact absurd hname h.nil_notMem
  · obtain ⟨rfl, rfl⟩ := List.cons.inj htext
    obtain ⟨hc, hchars⟩ := List.forall_mem_cons.mp (h.spelled _ hname)
    obtain ⟨e, behind, -, rfl, hbehind⟩ := htail.exists_of_name hc hchars
    obtain ⟨blanks', rest', rfl, hblanks', -, hrest⟩ := hbehind.exists_of_cons hblanks (by decide)
    refine ⟨c :: name, hname, blanks, blanks', rest, rest', hblanks, hblanks', htext, rfl, hrest,
      hfirst, ?_⟩
    rw [hbefore']
    cases hlast : other.getLast? with
    | some b =>
        rw [Option.some_or, Option.any_some]
        exact Unicode.not_isWord_of_isBlank (hother b (List.mem_of_getLast? hlast))
    | none =>
        rw [Option.none_or]
        rcases hedge with hiff | hopen
        · rw [hbefore, hiff.mpr (List.getLast?_eq_none_iff.mp hlast), List.getLast?_nil,
            Option.none_or] at hfirst
          exact hfirst
        · rw [Option.any_eq_false]
          intro p hp
          have hnot := hopen hc p hp
          rw [isOpen, Bool.or_assoc, Bool.or_eq_false_iff, isNameChar, Bool.or_eq_false_iff] at hnot
          exact hnot.1.1

/-- Where one text has no opener, the other has none. -/
theorem Opens.eq_none_of_aligned (h : Opens find names) (hedged : IsEdged find)
    {before before' gap other first second : List Char} {prev : Option Char} {c : Char}
    (hbefore : before.head? = gap.getLast?.or prev)
    (hbefore' : before'.head? = other.getLast?.or prev)
    (hgap : ∀ d ∈ gap, Unicode.isBlank d = true)
    (hedge : (gap = [] ↔ other = []) ∨ (isNameChar c = true → ∀ p ∈ prev, isOpen p = false))
    (htail : Aligned (some c) first second) (hnone : find before (c :: first) = none) :
    find before' (c :: second) = none := by
  rw [Option.eq_none_iff_forall_ne_some]
  intro m hm
  obtain ⟨name, hname, -, blanks, -, rest, -, hblanks, -, htext, -, -, hfirst⟩ :=
    h.exists_of_aligned hedged hbefore' hbefore hgap (hedge.imp_left Iff.symm) htail.symm hm
  obtain ⟨m', hm', -⟩ := h.finds rest hname hblanks hfirst
  rw [← htext, hnone] at hm'
  cases hm'

theorem unwrapFrom_sign {before rest : List Char} {c : Char}
    (hnone : find before (c :: rest) = none) :
    unwrapFrom find before (c :: rest) = unwrapFrom find (c :: before) rest := by
  rw [unwrapFrom]
  simp only [hnone]

/-- Whether two texts are aligned when the openers in them are unwrapped. What has been passed stays
in front of each; the blanks at its end are those in front of the next sign. -/
def StaysAligned (find : Finder) (prev : Option Char) (before gap after : List Char)
    (before' other after' : List Char) : Prop :=
  ∃ rest rest', (unwrapFrom find before after).text = before.reverse ++ rest ∧
    (unwrapFrom find before' after').text = before'.reverse ++ rest' ∧
    Aligned prev (gap ++ rest) (other ++ rest')

namespace StaysAligned

variable {before before' gap other blanks blanks' after after' : List Char} {prev : Option Char}

theorem nil (hgap : ∀ d ∈ gap, Unicode.isBlank d = true)
    (hother : ∀ d ∈ other, Unicode.isBlank d = true) :
    StaysAligned find prev before gap [] before' other [] := by
  refine ⟨[], [], by simp [unwrapFrom], by simp [unwrapFrom], ?_⟩
  rw [List.append_nil, List.append_nil]
  exact .blank hgap hother

/-- Blanks are passed in both texts. -/
theorem passed (h : Opens find names) (hblanks : ∀ d ∈ blanks, Unicode.isBlank d = true)
    (hblanks' : ∀ d ∈ blanks', Unicode.isBlank d = true)
    (hbehind : StaysAligned find prev (blanks.reverse ++ before) (gap ++ blanks) after
      (blanks'.reverse ++ before') (other ++ blanks') after') :
    StaysAligned find prev before gap (blanks ++ after) before' other (blanks' ++ after') := by
  obtain ⟨rest, rest', htext, htext', hrest⟩ := hbehind
  refine ⟨blanks ++ rest, blanks' ++ rest', ?_, ?_, ?_⟩
  · rw [h.unwrapFrom_blanks after hblanks, htext]
    simp
  · rw [h.unwrapFrom_blanks after' hblanks', htext']
    simp
  · rwa [List.append_assoc, List.append_assoc] at hrest

/-- A sign at which no opener starts is passed in both texts. -/
theorem sign {c : Char} {first second : List Char} (hgap : ∀ d ∈ gap, Unicode.isBlank d = true)
    (hother : ∀ d ∈ other, Unicode.isBlank d = true) (hc : Unicode.isBlank c = false)
    (hedge : (gap = [] ↔ other = []) ∨ (isNameChar c = true → ∀ p ∈ prev, isOpen p = false))
    (hnone : find before (c :: first) = none) (hnone' : find before' (c :: second) = none)
    (hbehind : StaysAligned find (some c) (c :: before) [] first (c :: before') [] second) :
    StaysAligned find prev before gap (c :: first) before' other (c :: second) := by
  obtain ⟨rest, rest', htext, htext', hrest⟩ := hbehind
  refine ⟨c :: rest, c :: rest', ?_, ?_, .sign hgap hother hc hedge hrest⟩
  · rw [unwrapFrom_sign hnone, htext]
    simp
  · rw [unwrapFrom_sign hnone', htext']
    simp

/-- An opener is taken off both texts, with the bracket that closes it. -/
theorem opener (h : Opens find names) {name inside inside' tail tail' : List Char}
    (hname : name ∈ names) (hblanks : ∀ d ∈ blanks, Unicode.isBlank d = true)
    (hblanks' : ∀ d ∈ blanks', Unicode.isBlank d = true)
    (hword : before.head?.any Unicode.isWord = false)
    (hword' : before'.head?.any Unicode.isWord = false)
    (hinside : Settles .angle inside) (hinside' : Settles .angle inside')
    (hbehind : StaysAligned find prev before gap (trim inside ++ tail) before' other
      (trim inside' ++ tail')) :
    StaysAligned find prev before gap (name ++ (blanks ++ '<' :: (inside ++ '>' :: tail)))
      before' other (name ++ (blanks' ++ '<' :: (inside' ++ '>' :: tail'))) := by
  rw [StaysAligned, h.unwrapFrom_opener hname hblanks hword hinside,
    h.unwrapFrom_opener hname hblanks' hword' hinside']
  exact hbehind

end StaysAligned

/-- Blanks that are passed stand at the end of what has been passed. -/
theorem head?_passed {before gap : List Char} {prev : Option Char}
    (h : before.head? = gap.getLast?.or prev) (blanks : List Char) :
    (blanks.reverse ++ before).head? = (gap ++ blanks).getLast?.or prev := by
  rw [List.head?_append, List.head?_reverse, h, List.getLast?_append, Option.or_assoc]

/-- What an opener encloses in one text it encloses, up to blanks, in the other. -/
theorem Aligned.exists_inside {rest rest' : List Char} (h : Aligned (some '<') rest rest')
    (hclosed : Closed ('<' :: rest)) : ∃ inside tail inside' tail',
      rest = inside ++ '>' :: tail ∧ rest' = inside' ++ '>' :: tail' ∧
      Settles .angle inside ∧ Settles .angle inside' ∧
      Aligned (some '<') inside inside' ∧ Aligned (some '>') tail tail' := by
  obtain ⟨inside, tail, rfl, hinside⟩ := hclosed.exists_inside
  obtain ⟨inside', tail', rfl, hin, hbehind⟩ := h.exists_of_append (by decide)
  have hsame : outline inside = outline inside' := hin.filter_eq fun hblank => by
    simpa using notMem_marks_of_isBlank hblank
  exact ⟨inside, tail, inside', tail', rfl, rfl, hinside, hinside.of_outline hsame, hin, hbehind⟩

/-- Where two texts are aligned and every bracket is closed, they stay so. -/
theorem Opens.staysAligned (h : Opens find names) (hedged : IsEdged find)
    {before before' gap other after after' : List Char} {prev : Option Char}
    (hbefore : before.head? = gap.getLast?.or prev)
    (hbefore' : before'.head? = other.getLast?.or prev)
    (hgap : ∀ d ∈ gap, Unicode.isBlank d = true) (hother : ∀ d ∈ other, Unicode.isBlank d = true)
    (haligned : Aligned prev (gap ++ after) (other ++ after')) (hclosed : Closed after) :
    StaysAligned find prev before gap after before' other after' := by
  -- Signs that are passed and brackets that are taken off make the text shorter.
  induction hlength : after.length using Nat.strongRecOn generalizing before before' gap other
    after after' prev with
  | ind n ih =>
      obtain ⟨blanks, hblanks, htext⟩ := exists_trimStart after
      rcases hsigns : trimStart after with _ | ⟨c, first⟩
      · rw [hsigns, List.append_nil] at htext
        subst htext
        have hafter' := haligned.forall_isBlank (List.forall_mem_append.mpr ⟨hgap, hblanks⟩)
        have hblanks' := (List.forall_mem_append.mp hafter').2
        rw [← List.append_nil after, ← List.append_nil after']
        exact .passed h hblanks hblanks' (.nil (List.forall_mem_append.mpr ⟨hgap, hblanks⟩) hafter')
      · have hc : Unicode.isBlank c = false :=
          not_isBlank_of_mem_head?_trimStart (by rw [hsigns]; rfl)
        rw [hsigns] at htext
        subst htext
        rw [← List.append_assoc] at haligned
        have hgap₁ := List.forall_mem_append.mpr ⟨hgap, hblanks⟩
        obtain ⟨blanks', second, rfl, hblanks', hedge, htail⟩ :=
          haligned.exists_of_gap hgap₁ hother hc
        have hother₁ := List.forall_mem_append.mpr ⟨hother, hblanks'⟩
        have hfront := head?_passed hbefore blanks
        have hfront' := head?_passed hbefore' blanks'
        refine .passed h hblanks hblanks' ?_
        have hclosed₁ : Closed (c :: first) := hclosed.of_isSuffix (List.suffix_append blanks _)
        rw [List.length_append] at hlength
        cases hm : find (blanks.reverse ++ before) (c :: first) with
        | none =>
            have hnone := h.eq_none_of_aligned hedged hfront hfront' hgap₁ hedge htail hm
            have hshorter : first.length < n := by
              rw [← hlength, List.length_cons]
              omega
            exact .sign hgap₁ hother₁ hc hedge hm hnone (ih _ hshorter rfl rfl nofun nofun htail
              (hclosed₁.of_isSuffix (List.suffix_cons c first)) rfl)
        | some m =>
            obtain ⟨name, hname, space, space', rest, rest', hspace, hspace', hfirst, hsecond,
              hrest, hword, hword'⟩ :=
              h.exists_of_aligned hedged hfront hfront' hother₁ hedge htail hm
            have hstart : isNameChar c = true := h.isNameChar_of_cons hname hfirst
            rw [hfirst] at hclosed₁ hlength
            obtain ⟨inside, tail, inside', tail', rfl, rfl, hinside, hinside', hin, hbehind⟩ :=
              hrest.exists_inside (hclosed₁.of_isSuffix ⟨name ++ space, List.append_assoc _ _ _⟩)
            have htailClosed : Closed tail := hclosed₁.of_isSuffix
              ⟨name ++ (space ++ '<' :: (inside ++ ['>'])), by simp⟩
            have hshorter : (trim inside ++ tail).length < n := by
              have htrim := length_trim_le inside
              simp only [List.length_append, List.length_cons] at hlength ⊢
              omega
            rw [hfirst, hsecond]
            exact .opener h hname hspace hspace' hword hword' hinside hinside' (ih _ hshorter hfront
              hfront' hgap₁ hother₁
              (hin.splice hbehind hgap₁ hother₁ (hedge.imp_right fun hopen => hopen hstart))
              (htailClosed.splice hinside) rfl)

end Unwrapping

end ClassSkeleton.Rules
