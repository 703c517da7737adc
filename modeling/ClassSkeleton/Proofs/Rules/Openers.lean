import ClassSkeleton.Proofs.Pattern.Words
import ClassSkeleton.Proofs.Rules.Entries
import ClassSkeleton.Proofs.Text.Brackets
import ClassSkeleton.Proofs.Text.Trimming

namespace ClassSkeleton

/-!
# The openers of wrappers

The unwrapping rules match a name behind which, blanks allowed, a bracket opens. A text of other
names is passed over, and an opener goes together with the bracket that closes it.
-/

namespace Rules

open Pattern

/-- Whether a character belongs to a qualified name. -/
def isNameChar (c : Char) : Bool := Unicode.isWord c || c == ':'

theorem not_isNameChar_of_isBlank {c : Char} (h : Unicode.isBlank c = true) :
    isNameChar c = false := by
  have hne : c ≠ ':' := by
    rintro rfl
    exact absurd h (by decide)
  simp [isNameChar, Unicode.not_isWord_of_isBlank h, hne]

theorem not_isBlank_of_isNameChar {c : Char} (h : isNameChar c = true) :
    Unicode.isBlank c = false := by
  by_contra hblank
  rw [Bool.not_eq_false] at hblank
  rw [not_isNameChar_of_isBlank hblank] at h
  cases h

theorem notMem_marks_of_isNameChar {c : Char} (h : isNameChar c = true) : c ∉ Text.marks :=
  Text.notMem_marks_of (by decide) h

theorem notMem_marks_of_isBlank {c : Char} (h : Unicode.isBlank c = true) : c ∉ Text.marks :=
  Text.notMem_marks_of (by decide) h

/-- Whether a finder finds the openers of some names, wherever no word goes on into the name. -/
structure Opens (find : Finder) (names : List (List Char)) : Prop where
  spelled : ∀ name ∈ names, ∀ c ∈ name, isNameChar c = true
  worded : ∀ name ∈ names, name.head?.any Unicode.isWord = true
  found : ∀ {before after m}, find before after = some m →
    ∃ name ∈ names, ∃ gap rest, (∀ c ∈ gap, Unicode.isBlank c = true) ∧
      after = name ++ (gap ++ '<' :: rest) ∧ m.length = (name ++ gap).length + 1
  finds : ∀ {before name gap} (rest), name ∈ names → (∀ c ∈ gap, Unicode.isBlank c = true) →
    before.head?.any Unicode.isWord = false →
      ∃ m, find before (name ++ (gap ++ '<' :: rest)) = some m ∧
        m.length = (name ++ gap).length + 1

theorem not_isNameChar_gap {gap : List Char} (hgap : ∀ c ∈ gap, Unicode.isBlank c = true)
    {c : Char} (hc : isNameChar c = false) (rest : List Char) :
    ∀ d ∈ (gap ++ c :: rest).head?, isNameChar d = false := by
  rcases gap with _ | ⟨b, gap⟩
  · rintro d ⟨⟩
    exact hc
  · rintro d ⟨⟩
    exact not_isNameChar_of_isBlank (hgap b List.mem_cons_self)

theorem ne_open_of_isNameChar {c : Char} (h : isNameChar c = true) : c ≠ '<' := by
  rintro rfl
  exact absurd h (by decide)

theorem ne_open_of_isBlank {c : Char} (h : Unicode.isBlank c = true) : c ≠ '<' := by
  rintro rfl
  exact absurd h (by decide)

theorem opens_of_openerNames? {x : Node} {names : List (List Char)}
    (h : x.openerNames? = some names) (hplain : x.isPlain = true)
    (hspelled : ∀ name ∈ names, ∀ c ∈ name, isNameChar c = true)
    (hworded : ∀ name ∈ names, name.head?.any Unicode.isWord = true) :
    Opens x.matchAt? names where
  spelled := hspelled
  worded := hworded
  found := by
    intro before after m hm
    obtain ⟨text, rest, recorded, rfl, rfl, htakes⟩ := Node.exists_takes_of_matchAt? hm
    obtain ⟨name, hname, gap, hgap, rfl, -, -⟩ := (Node.takes_iff_of_openerNames? h).mp htakes
    exact ⟨name, hname, gap, rest, hgap, by simp, by simp [Nat.add_assoc]⟩
  finds := by
    intro before name gap rest hname hgap hbefore
    have hedge : Node.atEdge before (name ++ gap ++ ['<'] ++ rest) := by
      have hhead := hworded name hname
      rcases name with _ | ⟨c, name⟩
      · cases hhead
      · have hc : Unicode.isWord c = true := hhead
        have hleft : before.head?.any (Look.isWord false) = false := hbefore
        simp [Node.atEdge, Look.holds, Look.isWord, hc, hleft]
    have htakes : x.Takes before (name ++ gap ++ ['<']) rest [] :=
      (Node.takes_iff_of_openerNames? h).mpr ⟨name, hname, gap, hgap, rfl, rfl, hedge⟩
    have hsome := (Node.matchAt?_isSome_iff hplain before _).mpr ⟨_, _, _, rfl, htakes⟩
    obtain ⟨m, hm⟩ := Option.isSome_iff_exists.mp hsome
    refine ⟨m, by simpa using hm, ?_⟩
    -- The match ends at the first bracket, whichever of the names it was found for.
    obtain ⟨text, tail, recorded, htext, rfl, hother⟩ := Node.exists_takes_of_matchAt? hm
    obtain ⟨other, hothername, blanks, hblanks, rfl, -, -⟩ :=
      (Node.takes_iff_of_openerNames? h).mp hother
    have hfree (word space : List Char) (hword : word ∈ names)
        (hspace : ∀ c ∈ space, Unicode.isBlank c = true) :
        ∀ c ∈ word ++ space, (c != '<') = true := by
      intro c hc
      rw [bne_iff_ne]
      rcases List.mem_append.mp hc with hc | hc
      · exact ne_open_of_isNameChar (hspelled word hword c hc)
      · exact ne_open_of_isBlank (hspace c hc)
    have hcut : name ++ gap ++ ('<' :: rest) = other ++ blanks ++ ('<' :: tail) := by
      simpa using htext
    obtain ⟨hsame, -⟩ := Text.append_inj_of_forall (p := (· != '<')) hcut
      (hfree name gap hname hgap) (by simp) (hfree other blanks hothername hblanks) (by simp)
    simp only [List.length_append, List.length_singleton, ← hsame]

namespace Opens

variable {find : Finder} {names : List (List Char)} {before : List Char}

theorem nil_notMem (h : Opens find names) : [] ∉ names := fun hmem =>
  absurd (h.worded [] hmem) (by decide)

/-- A whole name that is none of the names is not matched. -/
theorem eq_none (h : Opens find names) {text rest : List Char}
    (htext : ∀ c ∈ text, isNameChar c = true) (hnot : text ∉ names)
    (hrest : ∀ c ∈ rest.head?, isNameChar c = false) : find before (text ++ rest) = none := by
  rw [Option.eq_none_iff_forall_ne_some]
  intro m hm
  obtain ⟨name, hname, gap, tail, hgap, hparts, -⟩ := h.found hm
  obtain ⟨rfl, -⟩ := Text.append_inj_of_forall hparts htext hrest (h.spelled name hname)
    (not_isNameChar_gap hgap (by decide) tail)
  exact hnot hname

end Opens

theorem drop_opener (name gap rest : List Char) :
    (name ++ (gap ++ '<' :: rest)).drop ((name ++ gap).length + 1) = rest := by
  have hparts : name ++ (gap ++ '<' :: rest) = (name ++ gap ++ ['<']) ++ rest := by simp
  rw [hparts]
  exact List.drop_left' (by simp [Nat.add_assoc])

theorem unwrapFrom_append {find : Finder} {before text rest : List Char}
    (h : ∀ front back, text = front ++ back → back ≠ [] →
      find (front.reverse ++ before) (back ++ rest) = none) :
    unwrapFrom find before (text ++ rest) = unwrapFrom find (text.reverse ++ before) rest := by
  induction text generalizing before with
  | nil => rfl
  | cons c text ih =>
      have hnone : find before (c :: (text ++ rest)) = none :=
        h [] (c :: text) rfl (List.cons_ne_nil c text)
      have hnext : unwrapFrom find (c :: before) (text ++ rest) =
          unwrapFrom find (text.reverse ++ c :: before) rest := by
        apply ih
        rintro front back rfl hback
        simpa using h (c :: front) back rfl hback
      rw [List.cons_append, unwrapFrom]
      simp only [hnone]
      rw [hnext]
      simp

namespace Opens

variable {find : Finder} {names : List (List Char)} {before : List Char}

theorem unwrapFrom_name (h : Opens find names) {text rest : List Char}
    (htext : ∀ c ∈ text, isNameChar c = true) (hnot : ∀ name ∈ names, ¬ name <:+ text)
    (hrest : ∀ c ∈ rest.head?, isNameChar c = false) :
    unwrapFrom find before (text ++ rest) = unwrapFrom find (text.reverse ++ before) rest := by
  apply unwrapFrom_append
  rintro front back rfl -
  apply h.eq_none
  · exact fun c hc => htext c (List.mem_append_right front hc)
  · exact fun hmem => hnot back hmem (List.suffix_append front back)
  · exact hrest

theorem unwrapFrom_marks (h : Opens find names) {text : List Char} (rest : List Char)
    (htext : ∀ c ∈ text, isNameChar c = false) :
    unwrapFrom find before (text ++ rest) = unwrapFrom find (text.reverse ++ before) rest := by
  apply unwrapFrom_append
  rintro front (_ | ⟨c, back⟩) rfl hback
  · exact absurd rfl hback
  · have hc := htext c (List.mem_append_right front List.mem_cons_self)
    have hnone : find (front.reverse ++ before) ([] ++ c :: (back ++ rest)) = none :=
      h.eq_none (by simp) h.nil_notMem (by simpa using hc)
    exact hnone

theorem unwrapFrom_blanks (h : Opens find names) {blanks : List Char} (rest : List Char)
    (hblanks : ∀ c ∈ blanks, Unicode.isBlank c = true) :
    unwrapFrom find before (blanks ++ rest) = unwrapFrom find (blanks.reverse ++ before) rest :=
  h.unwrapFrom_marks rest fun c hc => not_isNameChar_of_isBlank (hblanks c hc)

/-- An opener and the bracket that closes it make way for what they enclose. -/
theorem unwrapFrom_opener (h : Opens find names) {name gap inside : List Char}
    (hname : name ∈ names) (hgap : ∀ c ∈ gap, Unicode.isBlank c = true)
    (hbefore : before.head?.any Unicode.isWord = false)
    (hinside : Text.Settles .angle inside) (rest : List Char) :
    unwrapFrom find before (name ++ (gap ++ '<' :: (inside ++ '>' :: rest))) =
      unwrapFrom find before (Text.trim inside ++ rest) := by
  obtain ⟨m, hm, hlength⟩ := h.finds (inside ++ '>' :: rest) hname hgap hbefore
  have hcut := Text.cutAtClose?_of_settles hinside rest
  rcases name with _ | ⟨c, name⟩
  · exact absurd hname h.nil_notMem
  · have hdrop := drop_opener name gap (inside ++ '>' :: rest)
    have hlength' : m.length = ((name ++ gap).length + 1) + 1 := by simpa using hlength
    rw [List.cons_append] at hm ⊢
    rw [unwrapFrom]
    simp only [hm, hlength']
    split
    · next cut behind hclosed =>
      rw [hdrop] at hclosed
      obtain ⟨rfl, rfl⟩ := Prod.mk.inj (Option.some.inj (hcut.symm.trans hclosed))
      rfl
    · next hopen =>
      rw [hdrop] at hopen
      cases hcut.symm.trans hopen

end Opens

/-- What the unwrapping rule of a pattern makes of a text. -/
def unwrapWith (pattern text : List Char) : List Char :=
  match Grammar.read? pattern with
  | some (node, _) => (unwrapAll node.matchAt? text).text
  | none => text

/-- Whether the unwrapping rule of a pattern takes off just what has one of some names. -/
def Unwraps (pattern : List Char) (names : List (List Char)) : Prop :=
  ∃ node groups, Grammar.read? pattern = some (node, groups) ∧ Opens node.matchAt? names

theorem unwraps_of_openerNames? {pattern : List Char} {names : List (List Char)}
    (hread : (Grammar.read? pattern).any (fun found =>
      found.1.isPlain && decide (found.1.openerNames? = some names)) = true)
    (hnames : ∀ name ∈ names, (∀ c ∈ name, isNameChar c = true) ∧
      name.head?.any Unicode.isWord = true) : Unwraps pattern names := by
  obtain ⟨⟨node, groups⟩, hfound, hboth⟩ := (Option.any_eq_true _ _).mp hread
  obtain ⟨hplain, hopener⟩ := (Bool.and_eq_true _ _).mp hboth
  refine ⟨node, groups, hfound, ?_⟩
  exact opens_of_openerNames? (of_decide_eq_true hopener) hplain
    (fun name hname => (hnames name hname).1) (fun name hname => (hnames name hname).2)

namespace Standard

def boostWrappers : List (List Char) := ["boost::auto_ptr".toList, "boost::scoped_ptr".toList,
  "boost::scoped_array".toList, "boost::shared_ptr".toList, "boost::shared_array".toList]

def stdWrappers : List (List Char) :=
  ["std::auto_ptr".toList, "std::unique_ptr".toList, "std::shared_ptr".toList]

/-- The templates that own what they point to. -/
def ownershipWrappers : List (List Char) := boostWrappers ++ stdWrappers

theorem wrappers_unwrap : List.Forall₂ (fun pattern names => Unwraps pattern.toList names)
    wrappers [boostWrappers, stdWrappers] := by
  refine .cons ?_ (.cons ?_ .nil)
  · exact unwraps_of_openerNames? (by decide +kernel) (by decide +kernel)
  · exact unwraps_of_openerNames? (by decide +kernel) (by decide +kernel)

/-- No rule takes off a part of a name that is left to a later one. -/
theorem wrappers_apart : [boostWrappers, stdWrappers].Pairwise fun names others =>
    ∀ other ∈ others, ∀ name ∈ names, ¬ name <:+: other := by decide +kernel

theorem apply_unwrapsOf (patterns : List String) (text : String) :
    (unwrapsOf patterns).apply text = String.ofList (patterns.foldl
      (fun text pattern => unwrapWith pattern.toList text) text.toList) := by
  apply apply_made
  · rintro _ p rfl text
    simp only [unwrapWith, p.read, Rule.apply, Pattern.find]
  · intro pattern hnone text
    rw [unwrapWith, hnone]

theorem apply_typeRemovals (text : String) : standard.typeRemovals.apply text =
    String.ofList (replaceWith "::".toList ".".toList (wrappers.foldl
      (fun text pattern => unwrapWith pattern.toList text) text.toList)) := by
  have heq : standard.typeRemovals = unwrapsOf wrappers ++ tableOf separators := rfl
  rw [heq, Table.apply_append, apply_unwrapsOf, apply_tableOf, String.toList_ofList, separators,
    List.foldl_cons, List.foldl_nil]

end Standard

end Rules

end ClassSkeleton
