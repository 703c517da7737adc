import ClassSkeleton.Proofs.Pattern.Literal
import ClassSkeleton.Proofs.Rules.TypeTree

namespace ClassSkeleton.Rules

/-!
# Wrappers as trees

The table of removals is run over the printing of a type tree. Each rule that unwraps lifts its own
wrappers, and the last rule writes `.` for `::`.
-/

open Text Pattern

section Unwrapping

variable {find : Finder} {names : List (List Char)}

/-- Whether no word stands directly before a place. -/
def IsOpenAt (before : List Char) : Prop := before.head?.any Unicode.isWord = false

theorem IsOpenAt.reverse_append {text before : List Char} (hbefore : IsOpenAt before)
    (h : ∀ c ∈ text, isNameChar c = false) : IsOpenAt (text.reverse ++ before) := by
  rcases List.eq_nil_or_concat text with rfl | ⟨front, c, rfl⟩
  · exact hbefore
  · have hc := h c (by simp)
    simp only [isNameChar, Bool.or_eq_false_iff] at hc
    simp [IsOpenAt, hc.1]

theorem IsOpenAt.cons {c : Char} (hc : isNameChar c = false) (before : List Char) :
    IsOpenAt (c :: before) := by
  simp only [isNameChar, Bool.or_eq_false_iff] at hc
  simp [IsOpenAt, hc.1]

/-- Whether a text between `before`, read backwards, and `rest` is turned into `result` on the way
from the one to the other. -/
def Turns (find : Finder) (before text result rest : List Char) : Prop :=
  unwrapFrom find before (text ++ rest) = unwrapFrom find (result.reverse ++ before) rest

theorem Turns.append {before text result more added rest : List Char}
    (h : Turns find before text result (more ++ rest))
    (hmore : Turns find (result.reverse ++ before) more added rest) :
    Turns find before (text ++ more) (result ++ added) rest := by
  rw [Turns] at h hmore ⊢
  rw [List.append_assoc, h, hmore, List.reverse_append, List.append_assoc]

theorem Opens.turns_name (h : Opens find names) {name : QualifiedName}
    (hname : name.Avoids names) (before : List Char) {rest : List Char}
    (hrest : ∀ c ∈ rest.head?, isNameChar c = false) :
    Turns find before name.spelling name.spelling rest := by
  apply h.unwrapFrom_name QualifiedName.isNameChar_of_mem_spelling
  · exact fun other hother hsuffix => hname other hother hsuffix.isInfix
  · exact hrest

theorem Opens.turns_blanks (h : Opens find names) (blanks : Blanks) (before rest : List Char) :
    Turns find before blanks.val blanks.val rest :=
  h.unwrapFrom_blanks rest blanks.property

theorem Opens.turns_mark (h : Opens find names) {c : Char} (hc : isNameChar c = false)
    (before rest : List Char) : Turns find before [c] [c] rest :=
  h.unwrapFrom_marks rest fun _ hd => List.mem_singleton.mp hd ▸ hc

mutual

/-- Where no name goes on to either side, a tree turns into the tree without its wrappers. -/
theorem TypeTree.turns_print (h : Opens find names) :
    ∀ {t : TypeTree}, t.WellWrapped names → ∀ {before rest : List Char}, IsOpenAt before →
      (∀ c ∈ rest.head?, isNameChar c = false) →
      Turns find before (t.print [':', ':']) ((t.lift names).print [':', ':']) rest
  | .plain name, hname, before, rest, _, hrest => h.turns_name hname before hrest
  | .hollow name gap inner, hname, before, rest, _, _ => by
    have hgap := not_isNameChar_gap gap.property (c := '<') (by decide) (inner ++ ['>'] ++ rest)
    apply (h.turns_name hname before (by simpa using hgap)).append
    apply (h.turns_blanks gap _ _).append
    apply (h.turns_mark (c := '<') (by decide) _ _).append
    apply (h.turns_blanks inner _ _).append
    exact h.turns_mark (by decide) _ _
  | .applied name gap args, ⟨hname, hargs⟩, before, rest, hbefore, hrest => by
    by_cases hmem : name.spelling ∈ names
    · have hsingle : args.isSingle = true := by
        rcases hname with ⟨-, hsingle⟩ | havoids
        · exact hsingle
        · exact absurd (List.infix_refl name.spelling) (havoids name.spelling hmem)
      cases args with
      | more lead arg trail more => cases hsingle
      | only lead arg trail =>
          have hinside : Settles .angle (lead ++ (arg.print [':', ':'] ++ trail)) :=
            Arguments.balanced_print (by decide) (.only lead arg trail) .angle
          have hopener := h.unwrapFrom_opener hmem gap.property hbefore hinside rest
          rw [trim_surrounded arg.tidy_print lead.property trail.property] at hopener
          have harg : Turns find before (arg.print [':', ':'])
              ((arg.lift names).print [':', ':']) rest := TypeTree.turns_print h hargs hbefore hrest
          have hlift : (TypeTree.applied name gap (.only lead arg trail)).lift names =
              arg.lift names := if_pos hmem
          rw [hlift, Turns, ← harg, ← hopener]
          simp [TypeTree.print, Arguments.print]
    · have havoids : name.Avoids names := hname.resolve_left fun hboth => hmem hboth.1
      have hgap := not_isNameChar_gap gap.property (c := '<') (by decide)
        (args.print [':', ':'] ++ ['>'] ++ rest)
      rw [TypeTree.lift, if_neg hmem]
      apply (h.turns_name havoids before (by simpa using hgap)).append
      apply (h.turns_blanks gap _ _).append
      apply (h.turns_mark (c := '<') (by decide) _ _).append
      apply (Arguments.turns_print h hargs rest (.cons (by decide) _)).append
      exact h.turns_mark (by decide) _ _

theorem Arguments.turns_print (h : Opens find names) :
    ∀ {args : Arguments}, args.WellWrapped names → ∀ {before : List Char} (rest : List Char),
      IsOpenAt before →
      Turns find before (args.print [':', ':']) ((args.lift names).print [':', ':']) ('>' :: rest)
  | .only lead arg trail, harg, before, rest, hbefore => by
    have hlead : IsOpenAt (lead.val.reverse ++ before) := hbefore.reverse_append fun c hc =>
      not_isNameChar_of_isBlank (lead.property c hc)
    have htrail := not_isNameChar_gap trail.property (c := '>') (by decide) rest
    apply (h.turns_blanks lead _ _).append
    apply (TypeTree.turns_print h harg hlead htrail).append
    exact h.turns_blanks trail _ _
  | .more lead arg trail more, ⟨harg, hmore⟩, before, rest, hbefore => by
    have hlead : IsOpenAt (lead.val.reverse ++ before) := hbefore.reverse_append fun c hc =>
      not_isNameChar_of_isBlank (lead.property c hc)
    have htrail := not_isNameChar_gap trail.property (c := ',') (by decide)
      (more.print [':', ':'] ++ '>' :: rest)
    apply (h.turns_blanks lead _ _).append
    apply (TypeTree.turns_print h harg hlead (by simpa using htrail)).append
    apply (h.turns_blanks trail _ _).append
    apply (h.turns_mark (c := ',') (by decide) _ _).append
    exact Arguments.turns_print h hmore rest (.cons (by decide) _)

end

/-- A tree with blanks around it. -/
def surround (lead trail : Blanks) (text : List Char) : List Char := lead ++ (text ++ trail)

theorem unwrapWith_print {pattern : List Char} (h : Unwraps pattern names) {t : TypeTree}
    (ht : t.WellWrapped names) (lead trail : Blanks) :
    unwrapWith pattern (surround lead trail (t.print [':', ':'])) =
      surround lead trail ((t.lift names).print [':', ':']) := by
  obtain ⟨node, groups, hread, hopens⟩ := h
  have hlead : IsOpenAt (lead.val.reverse ++ []) := IsOpenAt.reverse_append rfl fun c hc =>
    not_isNameChar_of_isBlank (lead.property c hc)
  have htrail : ∀ c ∈ (trail.val ++ []).head?, isNameChar c = false := by
    intro c hc
    rw [List.append_nil] at hc
    exact not_isNameChar_of_isBlank (trail.property c (List.mem_of_mem_head? hc))
  have hall : Turns node.matchAt? [] (surround lead trail (t.print [':', ':']))
      (surround lead trail ((t.lift names).print [':', ':'])) [] := by
    apply (hopens.turns_blanks lead _ _).append
    apply (TypeTree.turns_print hopens ht hlead htrail).append
    exact hopens.turns_blanks trail _ _
  rw [Turns, List.append_nil, List.append_nil] at hall
  rw [unwrapWith, hread]
  simp only [unwrapAll]
  rw [hall, unwrapFrom, List.reverse_reverse]

/-- Rules that unwrap, one after the other, lift all their wrappers. -/
theorem foldl_unwrapWith_print {patterns : List String} {tables : List (List (List Char))}
    (h : List.Forall₂ (fun pattern names => Unwraps pattern.toList names) patterns tables)
    (hapart : tables.Pairwise fun names others => ∀ other ∈ others, ∀ name ∈ names,
      ¬ name <:+: other) {t : TypeTree} (ht : t.WellWrapped tables.flatten)
    (lead trail : Blanks) :
    patterns.foldl (fun text pattern => unwrapWith pattern.toList text)
        (surround lead trail (t.print [':', ':'])) =
      surround lead trail ((t.lift tables.flatten).print [':', ':']) := by
  induction h generalizing t with
  | nil => rw [List.flatten_nil, t.lift_nil, List.foldl_nil]
  | @cons pattern names patterns tables hfirst _ ih =>
      obtain ⟨hnames, hrest⟩ := List.pairwise_cons.mp hapart
      rw [List.flatten_cons] at ht ⊢
      have hothers : ∀ other ∈ tables.flatten, ∀ name ∈ names, ¬ name <:+: other := by
        intro other hother
        obtain ⟨others, hmem, hother⟩ := List.mem_flatten.mp hother
        exact hnames others hmem other hother
      rw [List.foldl_cons, unwrapWith_print hfirst (.of_append hothers ht),
        ih hrest ht.lift, t.lift_lift]

end Unwrapping

section Separators

/-- Whether every `::` in a text is written as `.`, whatever stands behind it. -/
def Dots (text result : List Char) : Prop :=
  ∀ rest, substituteFrom [':', ':'] ['.'] 0 (text ++ rest) =
    result ++ substituteFrom [':', ':'] ['.'] 0 rest

theorem Dots.append {text result more added : List Char} (h : Dots text result)
    (hmore : Dots more added) : Dots (text ++ more) (result ++ added) := by
  intro rest
  rw [List.append_assoc, h, hmore, List.append_assoc]

theorem Dots.of_notMem {text : List Char} (h : ':' ∉ text) : Dots text text :=
  fun rest => substituteFrom_append h rest

theorem Dots.enclose {text result : List Char} (h : Dots text result) :
    Dots ('<' :: (text ++ ['>'])) ('<' :: (result ++ ['>'])) := by
  have hopen : Dots ['<'] ['<'] := .of_notMem (by decide)
  have hclose : Dots ['>'] ['>'] := .of_notMem (by decide)
  exact hopen.append (h.append hclose)

theorem Dots.separator : Dots [':', ':'] ['.'] := substituteFrom_needle

theorem Dots.blanks (blanks : Blanks) : Dots blanks.val blanks.val := by
  apply Dots.of_notMem
  intro hmem
  exact absurd (blanks.property ':' hmem) (by decide)

theorem Dots.segment {segment : List Char} (h : ∀ c ∈ segment, Unicode.isWord c = true) :
    Dots segment segment := by
  apply Dots.of_notMem
  intro hmem
  exact absurd (h ':' hmem) (by decide)

theorem QualifiedName.dots (name : QualifiedName) : Dots name.spelling (name.print ['.']) := by
  obtain ⟨segments, hnonempty, hworded⟩ := name
  simp only [spelling, print]
  clear hnonempty
  induction segments with
  | nil => exact fun _ => rfl
  | cons first segments ih =>
      obtain ⟨⟨-, hfirst⟩, hsegments⟩ := List.forall_mem_cons.mp hworded
      rcases segments with _ | ⟨second, segments⟩
      · simpa using Dots.segment hfirst
      · rw [List.intercalate_cons_cons, List.intercalate_cons_cons]
        exact ((Dots.segment hfirst).append .separator).append (ih hsegments)

mutual

theorem TypeTree.dots : ∀ t : TypeTree, Dots (t.print [':', ':']) (t.print ['.'])
  | .plain name => name.dots
  | .hollow name gap inner => name.dots.append ((Dots.blanks gap).append (Dots.blanks inner).enclose)
  | .applied name gap args => name.dots.append ((Dots.blanks gap).append args.dots.enclose)

theorem Arguments.dots : ∀ args : Arguments, Dots (args.print [':', ':']) (args.print ['.'])
  | .only lead arg trail => (Dots.blanks lead).append (arg.dots.append (.blanks trail))
  | .more lead arg trail rest => by
    have hcomma : Dots [','] [','] := .of_notMem (by decide)
    apply (Dots.blanks lead).append
    apply arg.dots.append
    apply (Dots.blanks trail).append
    apply hcomma.append
    exact rest.dots

end

theorem replaceWith_separators (text : List Char) :
    Standard.replaceWith "::".toList ".".toList text = substitute [':', ':'] ['.'] text := by
  have hread : (Grammar.read? "::".toList).any (fun found =>
      found.1.isPlain && decide (found.1.words? = some [[':', ':']])) = true := by decide +kernel
  obtain ⟨⟨node, names⟩, hfound, hboth⟩ := (Option.any_eq_true _ _).mp hread
  obtain ⟨hplain, hwords⟩ := (Bool.and_eq_true _ _).mp hboth
  have hparts : Template.parts ".".toList = [.char '.'] := by decide +kernel
  have hfind := Node.matchAt?_of_word (of_decide_eq_true hwords) hplain
  have hexpand (m : Match) : Template.expand names [.char '.'] m = ['.'] := rfl
  rw [Standard.replaceWith, hfound, hparts]
  exact replaceFrom_of_word hfind hexpand [] 0 false text

end Separators

namespace Standard

/-- The table of removals takes every ownership wrapper off a type tree, at every depth, and
writes `.` for `::`. Everything else stays as it is printed. -/
theorem typeRemovals_apply_print {t : TypeTree} (h : t.WellWrapped ownershipWrappers)
    (lead trail : Blanks) :
    standard.typeRemovals.apply (String.ofList (surround lead trail (t.print [':', ':']))) =
        String.ofList (surround lead trail ((t.lift ownershipWrappers).print ['.'])) ∧
      Balanced (surround lead trail ((t.lift ownershipWrappers).print ['.'])) := by
  have hall : [boostWrappers, stdWrappers].flatten = ownershipWrappers := by
    simp [ownershipWrappers]
  have hunwrapped := foldl_unwrapWith_print wrappers_unwrap wrappers_apart (hall ▸ h) lead trail
  have hdots : Dots (surround lead trail ((t.lift ownershipWrappers).print [':', ':']))
      (surround lead trail ((t.lift ownershipWrappers).print ['.'])) :=
    (Dots.blanks lead).append ((t.lift ownershipWrappers).dots.append (.blanks trail))
  constructor
  · have htext := String.toList_ofList (l := surround lead trail (t.print [':', ':']))
    have hwritten := hdots []
    rw [List.append_nil, substituteFrom, List.append_nil] at hwritten
    rw [apply_typeRemovals, htext, hunwrapped, hall, replaceWith_separators, substitute, hwritten]
  · have hprint : Balanced ((t.lift ownershipWrappers).print ['.']) :=
      TypeTree.balanced_print (by decide) _
    exact (balanced_blanks lead).append (hprint.append (balanced_blanks trail))

/-- A shared pointer to a map that owns its values one by one. -/
def ownedMap : TypeTree :=
  .applied ⟨["boost".toList, "shared_ptr".toList], by decide, by decide +kernel⟩ ⟨[' '], by decide⟩
    (.only ⟨['\t'], by decide⟩
      (.applied ⟨["std".toList, "map".toList], by decide, by decide +kernel⟩ ⟨[], by decide⟩
        (.more ⟨[], by decide⟩
          (.plain ⟨["Key".toList], by decide, by decide +kernel⟩) ⟨[' '], by decide⟩
          (.only ⟨['\u2003'], by decide⟩
            (.applied ⟨["std".toList, "unique_ptr".toList], by decide, by decide +kernel⟩
              ⟨[], by decide⟩
              (.only ⟨['\n'], by decide⟩
                (.hollow ⟨["ql".toList, "Curve".toList], by decide, by decide +kernel⟩
                  ⟨[], by decide⟩ ⟨[' '], by decide⟩)
                ⟨[' '], by decide⟩))
            ⟨[' '], by decide⟩)))
      ⟨[], by decide⟩)

theorem typeRemovals_apply_ownedMap :
    ownedMap.WellWrapped ownershipWrappers ∧ standard.typeRemovals.apply
        "boost::shared_ptr <\tstd::map<Key ,\u2003std::unique_ptr<\nql::Curve< > > >>" =
      "std.map<Key ,\u2003ql.Curve< > >" := by
  have hwell : ownedMap.WellWrapped ownershipWrappers := by decide +kernel
  have hprinted : String.ofList (surround ⟨[], by decide⟩ ⟨[], by decide⟩
      (ownedMap.print [':', ':'])) =
        "boost::shared_ptr <\tstd::map<Key ,\u2003std::unique_ptr<\nql::Curve< > > >>" := by
    decide +kernel
  have hlifted : String.ofList (surround ⟨[], by decide⟩ ⟨[], by decide⟩
      ((ownedMap.lift ownershipWrappers).print ['.'])) = "std.map<Key ,\u2003ql.Curve< > >" := by
    decide +kernel
  refine ⟨hwell, ?_⟩
  rw [← hprinted, ← hlifted]
  exact (typeRemovals_apply_print hwell ⟨[], by decide⟩ ⟨[], by decide⟩).1

end Standard

end ClassSkeleton.Rules
