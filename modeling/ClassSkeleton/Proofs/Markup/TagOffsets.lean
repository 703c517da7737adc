import ClassSkeleton.Proofs.Decl.Acceptance
import ClassSkeleton.Proofs.FirstWins
import ClassSkeleton.Proofs.Markup.Lexemes
import ClassSkeleton.Proofs.Markup.Linearisation
import ClassSkeleton.Proofs.Text.Coordinates

namespace ClassSkeleton.Markup

/-!
# Offsets of elements

The offset of an element is searched for from the end of its start tag to the front. So it is the
place of the last `<` in the tag, which is the first byte only if no other one follows it there.
Start tags do not overlap, and the elements of a document come in the order of theirs.
-/

section Searching

variable {limit offset found : Nat} {text : List Char}

theorem lastOpening_append (rest : List Char) :
    lastOpening limit offset found (text ++ rest) =
      lastOpening limit (offset + Text.bytes text) (lastOpening limit offset found text) rest := by
  induction text generalizing offset found with
  | nil => rfl
  | cons c text ih =>
      rw [List.cons_append, lastOpening, ih, lastOpening, Text.bytes_cons, Nat.add_assoc]

theorem lastOpening_of_notMem (h : '<' ∉ text) : lastOpening limit offset found text = found := by
  induction text generalizing offset with
  | nil => rfl
  | cons c text ih =>
      obtain ⟨hc, htext⟩ : '<' ≠ c ∧ '<' ∉ text := by simpa using h
      rw [lastOpening, if_neg fun hopening => hc hopening.1.symm, ih htext]

theorem lastOpening_of_le (h : limit ≤ offset) : lastOpening limit offset found text = found := by
  induction text generalizing offset with
  | nil => rfl
  | cons c text ih =>
      rw [lastOpening, if_neg fun hopening => Nat.not_lt.mpr h hopening.2,
        ih (Nat.le_add_right_of_le h)]

/-- A search in front of a place finds the last `<` there, whatever stands behind. -/
theorem lastOpening_eq_of_last {before behind : List Char} (hbehind : '<' ∉ behind)
    (back : List Char) (hlimit : limit = Text.bytes (before ++ '<' :: behind)) :
    lastOpening limit 0 0 (before ++ '<' :: behind ++ back) = Text.bytes before := by
  have hlt : Text.bytes before < limit := by
    rw [hlimit, Text.bytes_append, Text.bytes_cons]
    have := Char.utf8Size_pos '<'
    omega
  have hopening : '<' = '<' ∧ 0 + Text.bytes before < limit := ⟨rfl, by omega⟩
  rw [List.append_assoc, lastOpening_append, List.cons_append, lastOpening, if_pos hopening,
    lastOpening_append, lastOpening_of_notMem hbehind, lastOpening_of_le, Nat.zero_add]
  rw [hlimit, Text.bytes_append, Text.bytes_cons]
  omega

end Searching

theorem exists_last_opening {text : List Char} (h : '<' ∈ text) :
    ∃ before behind, text = before ++ '<' :: behind ∧ '<' ∉ behind := by
  induction text with
  | nil => cases h
  | cons c text ih =>
      by_cases hmem : '<' ∈ text
      · obtain ⟨before, behind, rfl, hbehind⟩ := ih hmem
        exact ⟨c :: before, behind, rfl, hbehind⟩
      · obtain rfl := (List.mem_cons.mp h).resolve_right hmem
        exact ⟨[], text, rfl, hmem⟩

section Tags

theorem offset_of_readTag {content : List Char} {offset : Nat} {tag : Tag}
    (h : readTag content offset = .ok tag) :
    tag.offset = offset ∧ tag.name.toList = content.takeWhile fun c => !isSpace c := by
  unfold readTag at h
  cases hattributes : readAttributes (Text.bytes (content.takeWhile fun c => !isSpace c)) []
      (content.dropWhile fun c => !isSpace c) with
  | error cause => simp [hattributes, bind, Except.bind] at h
  | ok attributes =>
      simp only [hattributes, bind, Except.bind] at h
      obtain rfl := Except.ok.inj h
      exact ⟨rfl, String.toList_ofList⟩

theorem StartTag.Opens.readTag_eq {locate : Nat → Nat} {t : StartTag} {tag : Tag}
    (h : t.Opens locate tag) : readTag t.inner (locate t.stop) = .ok tag := by
  obtain ⟨event, hevent, htag⟩ := h
  unfold openedEvent at hevent
  unfold StartTag.inner
  split at hevent
  · next hslash =>
      obtain ⟨read, hread, rfl⟩ := exists_of_map_eq_ok hevent
      obtain rfl := Option.some.inj htag
      rw [if_pos hslash]
      exact hread
  · next hslash =>
      obtain ⟨read, hread, rfl⟩ := exists_of_map_eq_ok hevent
      obtain rfl := Option.some.inj htag
      rw [if_neg hslash]
      exact hread

theorem StartTag.isPrefix_inner (t : StartTag) : t.inner <+: t.body := by
  unfold StartTag.inner
  split
  · exact List.dropLast_prefix _
  · exact List.prefix_rfl

/-- What a start tag of a source says of its element: it has been read from the tag, it has the
name in front there, and its offset is the place of the last `<` in the tag. -/
structure Begins (source : List Char) (t : StartTag) (e : Element) : Prop where
  stands : t.StandsIn source
  read : readTag t.inner e.tag.offset = .ok e.tag
  name : ('<' :: e.name.toList) <+: t.spell
  opening : ∃ before behind, t.spell = before ++ '<' :: behind ∧ '<' ∉ behind ∧
    e.tag.offset = t.start + Text.bytes before
  first : e.tag.offset = t.start ↔ '<' ∉ t.body

theorem notMem_body_iff {t : StartTag} {before behind : List Char}
    (hspell : t.spell = before ++ '<' :: behind) (hbehind : '<' ∉ behind) :
    before = [] ↔ '<' ∉ t.body := by
  change '<' :: (t.body ++ ['>']) = _ at hspell
  constructor
  · rintro rfl hmem
    obtain rfl := (List.cons.inj hspell).2
    exact hbehind (List.mem_append_left _ hmem)
  · intro hbody
    cases before with
    | nil => rfl
    | cons c before =>
        have hmem : '<' ∈ t.body ++ ['>'] := by
          rw [(List.cons.inj hspell).2]
          simp
        simp [hbody] at hmem

theorem begins_of_opens {source : List Char} {t : StartTag} {e : Element}
    (hstands : t.StandsIn source)
    (hopens : t.Opens (fun limit => lastOpening limit 0 0 source) e.tag) : Begins source t e := by
  have hread := hopens.readTag_eq
  obtain ⟨hoffset, hname⟩ := offset_of_readTag hread
  obtain ⟨before, behind, hspell, hbehind⟩ : ∃ before behind,
      t.spell = before ++ '<' :: behind ∧ '<' ∉ behind :=
    exists_last_opening List.mem_cons_self
  have hplace : e.tag.offset = t.start + Text.bytes before := by
    obtain ⟨front, back, hsource, hfront⟩ := hstands
    rw [hspell, ← List.append_assoc] at hsource
    have hstop : t.stop = Text.bytes (front ++ before ++ '<' :: behind) := by
      rw [StartTag.stop, hspell, ← hfront, ← Text.bytes_append, List.append_assoc]
    rw [hoffset, hsource, lastOpening_eq_of_last hbehind back hstop, Text.bytes_append, hfront]
  refine ⟨hstands, hoffset ▸ hread, ?_, ⟨before, behind, hspell, hbehind, hplace⟩, ?_⟩
  · rw [Element.name, hname]
    refine (List.cons_prefix_cons.mpr ⟨rfl, ?_⟩)
    exact ((List.takeWhile_prefix _).trans t.isPrefix_inner).trans (List.prefix_append _ _)
  · rw [← notMem_body_iff hspell hbehind, ← Text.bytes_eq_zero_iff, hplace]
    omega

theorem Begins.within {source : List Char} {t : StartTag} {e : Element} (h : Begins source t e) :
    t.start ≤ e.tag.offset ∧ e.tag.offset < t.stop := by
  obtain ⟨before, behind, hspell, -, hoffset⟩ := h.opening
  have := Char.utf8Size_pos '<'
  rw [StartTag.stop, hspell, hoffset, Text.bytes_append, Text.bytes_cons]
  omega

theorem offset_lt_of_begins {source : List Char} {ts : List StartTag} {es : List Element}
    (h : List.Forall₂ (Begins source) ts es)
    (hts : ts.Pairwise fun t u => t.stop ≤ u.start) :
    es.Pairwise fun e f => e.tag.offset < f.tag.offset := by
  induction h with
  | nil => exact .nil
  | cons hfirst hmore ih =>
      obtain ⟨hdisjoint, hrest⟩ := List.pairwise_cons.mp hts
      refine .cons ?_ (ih hrest)
      intro f hf
      obtain ⟨i, hi, rfl⟩ := List.getElem_of_mem hf
      have hi' := hmore.length_eq.symm ▸ hi
      have hother := (hmore.get hi' hi).within
      have := hdisjoint _ (List.getElem_mem hi')
      have := hfirst.within
      simp only [List.get_eq_getElem] at hother
      omega

end Tags

namespace Node

mutual

/-- The elements of a tree, in document order. -/
def inOrder : Node → List Element
  | text _ => []
  | element tag children => ⟨tag, children⟩ :: allInOrder children

def allInOrder : List Node → List Element
  | [] => []
  | node :: rest => inOrder node ++ allInOrder rest

end

mutual

theorem named_eq_filter (name : String) : ∀ node : Node,
    named name node = (inOrder node).filter (·.name = name)
  | text _ => rfl
  | element tag children => by
    rw [named, inOrder, allNamed_eq_filter name children, List.filter_cons]
    by_cases h : tag.name = name <;> simp [h, Element.name]

theorem allNamed_eq_filter (name : String) : ∀ nodes : List Node,
    allNamed name nodes = (allInOrder nodes).filter (·.name = name)
  | [] => rfl
  | node :: rest => by
    rw [allNamed, allInOrder, List.filter_append, named_eq_filter name node,
      allNamed_eq_filter name rest]

end

mutual

theorem allInOrder_subset {e : Element} : ∀ {node : Node}, e ∈ inOrder node →
    allInOrder e.children ⊆ inOrder node
  | element tag children, h => by
    rw [inOrder]
    rcases List.mem_cons.mp h with rfl | hmem
    · exact List.subset_cons_self _ _
    · exact List.Subset.trans (allInOrder_subset_all hmem) (List.subset_cons_self _ _)

theorem allInOrder_subset_all {e : Element} : ∀ {nodes : List Node}, e ∈ allInOrder nodes →
    allInOrder e.children ⊆ allInOrder nodes
  | node :: rest, h => by
    rw [allInOrder]
    rcases List.mem_append.mp h with hmem | hmem
    · exact List.Subset.trans (allInOrder_subset hmem) (List.subset_append_left _ _)
    · exact List.Subset.trans (allInOrder_subset_all hmem) (List.subset_append_right _ _)

end

end Node

namespace Element

/-- An element and those below it, in document order. -/
def inOrder (e : Element) : List Element := e.toNode.inOrder

theorem mem_inOrder_self (e : Element) : e ∈ e.inOrder := List.mem_cons_self

theorem mem_inOrder_of_descendantsNamed {root e f : Element} {name : String}
    (he : e ∈ root.inOrder) (hf : f ∈ e.descendantsNamed name) : f ∈ root.inOrder := by
  rw [descendantsNamed, Node.allNamed_eq_filter] at hf
  exact Node.allInOrder_subset he (List.mem_filter.mp hf).1

end Element

section Trees

theorem filterMap_tag?_of_spells {nodes : List Node} {events : List Event}
    (h : Spells nodes events) :
    events.filterMap Event.tag? = (Node.allInOrder nodes).map (·.tag) := by
  induction h with
  | nil => rfl
  | text _ ih | data _ ih => exact ih
  | single _ ih => simp [Event.tag?, Node.allInOrder, Node.inOrder, ih]
  | element _ _ ihInside ihTail =>
      have hclosed : Event.closed.tag? = none := rfl
      simp [Event.tag?, Node.allInOrder, Node.inOrder, List.filterMap_cons_none hclosed, ihInside,
        ihTail]

theorem filterMap_tag?_content (depth : Nat) (events : List Event) :
    (content depth events).filterMap Event.tag? = events.filterMap Event.tag? := by
  induction events generalizing depth with
  | nil => rfl
  | cons event events ih =>
      rw [content]
      split
      · rw [List.filterMap_cons, List.filterMap_cons, ih]
      · next hnot =>
          have hnone : event.tag? = none := by
            cases event <;> simp_all [Event.carries, Event.tag?]
          rw [ih, List.filterMap_cons_none hnone]

theorem spells_of_parse {source : String} {root : Element} (h : parse source = .ok root) :
    (events source).fault = none ∧ Spells [root.toNode] (spelled source) := by
  have houtcome := outcome_parse source
  rw [h] at houtcome
  generalize hfault : (events source).fault = fault at houtcome
  cases houtcome with
  | tree whole => exact ⟨rfl, whole⟩

theorem events_eq_readEvents {source : String} (h : source.toList.head? ≠ some '\ufeff') :
    events source =
      readEvents (fun limit => lastOpening limit 0 0 source.toList) [] 0 source.toList := by
  rw [events]
  simp only [if_neg h]

/-- The start tags of a document begin its elements, one each and in document order. -/
theorem exists_begins_of_parse {source : String} {root : Element}
    (hmark : source.toList.head? ≠ some '\ufeff') (hparse : parse source = .ok root) :
    ∃ lexemes, Lexes source.toList lexemes ∧
      List.Forall₂ (Begins source.toList) (startTags 0 lexemes) root.inOrder := by
  obtain ⟨hfault, hspells⟩ := spells_of_parse hparse
  have htags : (events source).events.filterMap Event.tag? = root.inOrder.map (·.tag) := by
    rw [← filterMap_tag?_content 0, ← spelled, filterMap_tag?_of_spells hspells]
    simp [Element.inOrder, Node.allInOrder]
  rw [events_eq_readEvents hmark] at hfault htags
  obtain ⟨lexemes, hlexes, hbegins⟩ :=
    exists_lexes_of_readEvents source.toList source.toList [] rfl Text.bytes_nil hfault
  refine ⟨lexemes, hlexes, ?_⟩
  rw [htags, List.forall₂_map_left_iff] at hbegins
  exact (hbegins.imp fun e t h => begins_of_opens h.1 h.2).flip

end Trees

section Errors

open Decl Text

theorem Begins.byte_ofByte {source : String} {t : StartTag} {e : Element}
    (h : Begins source.toList t e) : (Position.ofByte source e.tag.offset).byte = e.tag.offset := by
  obtain ⟨front, back, hsource, hfront⟩ := h.stands
  obtain ⟨before, behind, hspell, -, hoffset⟩ := h.opening
  have htext : source.toList = (front ++ before) ++ ('<' :: behind ++ back) := by
    rw [hsource, hspell]
    simp
  have hplace : e.tag.offset = bytes (front ++ before) := by
    rw [hoffset, bytes_append, hfront]
  rw [hplace, Position.ofByte_bytes htext, Position.byte_behind]

theorem element_of_mem_memberChecks {e : Element} {c : Check} (h : c ∈ memberChecks e) :
    c.element = e := by
  have hflag (name : String) : ∀ c ∈ flagChecks e name, c.element = e := by
    simp [flagChecks, attrCheck]
  have htext : ∀ c ∈ textChecks e "name", c.element = e := by simp [textChecks]
  have hall : ∀ c ∈ memberChecks e, c.element = e := by
    rw [memberChecks]
    refine List.forall_mem_append.mpr ⟨by simp [attrCheck], ?_⟩
    split
    · simp only [List.forall_mem_append]
      refine ⟨htext, hflag "static", ?_, by simp [protectionCheck]⟩
      split
      · simp [attrCheck]
      · exact hflag "mutable"
    · simp
  exact hall c h

theorem element_of_mem_checks {e : Element} {c : Check} (h : c ∈ checks e) :
    c.element = e ∨ c.element ∈ e.descendantsNamed "memberdef" := by
  rcases List.mem_append.mp h with hcompound | hmember
  · left
    simp only [compoundChecks, attrCheck, kindCheck, protectionCheck, textChecks, List.mem_append,
      List.mem_cons, List.not_mem_nil, or_false] at hcompound
    rcases hcompound with rfl | rfl | rfl | rfl | rfl <;> rfl
  · right
    obtain ⟨m, hm, hc⟩ := List.mem_flatMap.mp hmember
    rwa [element_of_mem_memberChecks hc]

theorem mem_inOrder_of_mem_compoundsOf {root e : Element} (h : e ∈ Document.compoundsOf root) :
    e ∈ root.inOrder ∧ e.name = Document.compoundTag := by
  have hmem := (List.mem_filter.mp h).1
  split at hmem
  · next hroot =>
      obtain rfl := List.mem_singleton.mp hmem
      exact ⟨e.mem_inOrder_self, hroot⟩
  · refine ⟨Element.mem_inOrder_of_descendantsNamed root.mem_inOrder_self hmem, ?_⟩
    rw [Element.descendantsNamed, Node.allNamed_eq_filter] at hmem
    exact of_decide_eq_true (List.mem_filter.mp hmem).2

theorem mem_of_rejected {generate : ClassDecl → Skeleton.SourceUnit} {name : String}
    {why : Diagnostic} {owners : List (String × String)}
    {entries : List (String × Except Diagnostic ClassDecl)}
    (h : .rejected name why ∈ (compileFrom generate owners entries).problems) :
    (name, .error why) ∈ entries := by
  fun_induction compileFrom generate owners entries with
  | case1 => cases h
  | case2 owners first reason rest ih =>
      rcases List.mem_cons.mp h with heq | hmore
      · cases heq
        exact List.mem_cons_self
      · exact List.mem_cons_of_mem _ (ih hmore)
  | case3 owners first c rest u owner howner ih =>
      rcases List.mem_cons.mp h with heq | hmore
      · cases heq
      · exact List.mem_cons_of_mem _ (ih hmore)
  | case4 owners first c rest u hfree ih => exact List.mem_cons_of_mem _ (ih h)

/-- What a class is rejected for is the first check that fails, of its compound or of a member
below it. -/
theorem exists_check_of_rejected {rules : Rules.RuleSet} {options : Skeleton.Options}
    {source : String} {root : Element} {result : Compiled} {name : String} {why : Diagnostic}
    (hparse : parse source = .ok root) (hresult : compile rules options source = .ok result)
    (h : .rejected name why ∈ result.problems) :
    ∃ e ∈ Document.compoundsOf root, name = Document.compoundName e ∧
      ∃ c, FirstFailure (checks e) c ∧ why = c.fault.diagnostic source := by
  simp only [compile, Document.compounds, hparse] at hresult
  obtain rfl := Except.ok.inj hresult
  obtain ⟨e, he, heq⟩ := List.mem_map.mp (mem_of_rejected h)
  obtain ⟨rfl, hread⟩ := Prod.mk.inj heq
  refine ⟨e, he, rfl, ?_⟩
  rw [Document.readClass] at hread
  cases hclass : readClass e with
  | ok c => simp [hclass, Except.mapError] at hread
  | error fault =>
      rw [hclass] at hread
      obtain ⟨c, hc, rfl⟩ := ((obeys_readClass e).eq_error_iff fault).mp hclass
      exact ⟨c, hc, (Except.error.inj hread).symm⟩

end Errors

open Decl in
/-- The elements of a document that is read, in their order, are begun by its start tags, one
each. Their offsets increase. A class that is rejected is rejected at a place in the start tag of
its compound or of a member below it, and that is the element whose check has failed. -/
theorem offsets_in_start_tags (source : String) (root : Element)
    (hmark : source.toList.head? ≠ some '\ufeff') (hparse : parse source = .ok root) :
    ∃ lexemes, Lexes source.toList lexemes ∧
      List.Forall₂ (Begins source.toList) (startTags 0 lexemes) root.inOrder ∧
      root.inOrder.Pairwise (fun e f => e.tag.offset < f.tag.offset) ∧
      ∀ rules options result, compile rules options source = .ok result →
        ∀ name why, .rejected name why ∈ result.problems →
          ∃ e ∈ Document.compoundsOf root, name = Document.compoundName e ∧
            ∃ c, FirstFailure (checks e) c ∧ why.message = c.error.message ∧
              (c.element = e ∧ e.name = "compounddef" ∨
                c.element ∈ e.descendantsNamed "memberdef") ∧
              ∃ t ∈ startTags 0 lexemes, Begins source.toList t c.element ∧
                ∃ position, why.position = some position ∧
                  t.start ≤ position.byte ∧ position.byte < t.stop := by
  obtain ⟨lexemes, hlexes, hbegins⟩ := exists_begins_of_parse hmark hparse
  refine ⟨lexemes, hlexes, hbegins, offset_lt_of_begins hbegins (pairwise_startTags 0 lexemes), ?_⟩
  intro rules options result hresult name why hwhy
  obtain ⟨e, he, hname, c, hfirst, rfl⟩ := exists_check_of_rejected hparse hresult hwhy
  obtain ⟨hroot, hcompound⟩ := mem_inOrder_of_mem_compoundsOf he
  have helement := element_of_mem_checks hfirst.not_met.1
  have hmem : c.element ∈ root.inOrder := by
    rcases helement with hself | hmember
    · exact hself ▸ hroot
    · exact Element.mem_inOrder_of_descendantsNamed hroot hmember
  obtain ⟨t, ht, hbegin⟩ : ∃ t ∈ startTags 0 lexemes, Begins source.toList t c.element := by
    obtain ⟨i, hi, heq⟩ := List.getElem_of_mem hmem
    have hi' := hbegins.length_eq.symm ▸ hi
    exact ⟨_, List.getElem_mem hi', heq ▸ hbegins.get hi' hi⟩
  refine ⟨e, he, hname, c, hfirst, rfl, helement.imp_left fun h => ⟨h, hcompound⟩, t, ht, hbegin,
    _, rfl, ?_⟩
  rw [Check.fault, hbegin.byte_ofByte]
  exact hbegin.within

/-- A compound without a name behind a comment, with a `<` in a value. -/
def unnamed : String := "<d><!--<x>--><compounddef kind='class' note='<'/></d>"

theorem offsets_in_start_tags_unnamed :
    ∃ root lexemes result why t position, parse unnamed = .ok root ∧
      Lexes unnamed.toList lexemes ∧
      List.Forall₂ (Begins unnamed.toList) (startTags 0 lexemes) root.inOrder ∧
      root.inOrder.map (·.tag.offset) = [0, 45] ∧
      compile Rules.standard ⟨"", .fieldsFirst, "java"⟩ unnamed = .ok result ∧
      .rejected "<unnamed>" why ∈ result.problems ∧ why.position = some position ∧
      StartTag.StandsIn t unnamed.toList ∧ t.start ≤ position.byte ∧ position.byte < t.stop := by
  have hoffsets : (parse unnamed).toOption.map (fun root => root.inOrder.map (·.tag.offset)) =
      some [0, 45] := by
    decide +kernel
  obtain ⟨root, hparse, hroot⟩ := exists_of_map_toOption hoffsets
  have hproblems : (compile Rules.standard ⟨"", .fieldsFirst, "java"⟩ unnamed).toOption.map
      (·.problems) = some [.rejected "<unnamed>" ⟨.missingElement,
        "compounddef has no <compoundname>", some ⟨45, 0, 45⟩, some Decl.recordHelp⟩] := by
    decide +kernel
  obtain ⟨result, hresult, hwhy⟩ := exists_of_map_toOption hproblems
  obtain ⟨lexemes, hlexes, hbegins, -, herrors⟩ :=
    offsets_in_start_tags unnamed root (by decide) hparse
  have hrejected := hwhy ▸ List.mem_cons_self
  obtain ⟨e, -, -, c, -, -, -, t, -, hbegin, position, hposition, hwithin⟩ :=
    herrors _ _ result hresult _ _ hrejected
  exact ⟨root, lexemes, result, _, t, position, hparse, hlexes, hbegins, hroot, hresult,
    hrejected, hposition, hbegin.stands, hwithin⟩

end ClassSkeleton.Markup
