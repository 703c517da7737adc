import ClassSkeleton.Compile
import ClassSkeleton.Proofs.Skeleton.Comment
import ClassSkeleton.Proofs.Skeleton.Layout
import ClassSkeleton.Proofs.Skeleton.UnitName

namespace ClassSkeleton.Skeleton

/-!
# Banners

A row of a skeleton that reads like a banner is the banner of a group that has members. Headers and
declarations end in signs in which no banner ends, and the rows of a comment begin as none begins,
so neither names nor types nor documentation can pass for one.
-/

open Decl Rewriting Text

/-- The row that names a group. -/
def bannerRow (l : Label) : List Char := "    // ".toList ++ l.banner.toList

/-- Whether a row names one of the groups. -/
def isBannerRow (row : List Char) : Bool := (fieldOrder ++ methodOrder).any (bannerRow · == row)

theorem nodup_bannerRows : ((fieldOrder ++ methodOrder).map bannerRow).Nodup := by decide +kernel

theorem mem_orders (l : Label) : l ∈ fieldOrder ++ methodOrder := by
  rcases l with ⟨access, modifier | modifier⟩ <;> cases access <;> cases modifier <;> decide

theorem isBannerRow_bannerRow (l : Label) : isBannerRow (bannerRow l) = true :=
  List.any_eq_true.mpr ⟨l, mem_orders l, beq_self_eq_true _⟩

theorem exists_of_isBannerRow {row : List Char} (h : isBannerRow row = true) :
    ∃ l ∈ fieldOrder ++ methodOrder, bannerRow l = row := by
  obtain ⟨l, hl, heq⟩ := List.any_eq_true.mp h
  exact ⟨l, hl, eq_of_beq heq⟩

/-- The signs in which banners end. -/
def bannerEnds : List Char := ['s', ')']

theorem bannerRow_ends (l : Label) :
    '\n' ∉ bannerRow l ∧ ∃ c ∈ bannerEnds, (bannerRow l).getLast? = some c := by
  have hall : ∀ l ∈ fieldOrder ++ methodOrder,
      '\n' ∉ bannerRow l ∧ (bannerRow l).getLast?.any (· ∈ bannerEnds) = true := by decide +kernel
  obtain ⟨hfeed, hany⟩ := hall l (mem_orders l)
  obtain ⟨c, hlast, hc⟩ := (Option.any_eq_true _ _).mp hany
  exact ⟨hfeed, c, of_decide_eq_true hc, hlast⟩

/-- A text made of rows that are lines as they stand, with the banners among them. -/
def Shows (text : List Char) (banners : List (List Char)) : Prop :=
  ∃ rows, text = ended rows ∧ (∀ row ∈ rows, '\n' ∉ row ∧ row.getLast? ≠ some '\r') ∧
    rows.filter isBannerRow = banners

namespace Shows

theorem nil : Shows [] [] := ⟨[], rfl, by simp, rfl⟩

theorem append {text more : List Char} {banners others : List (List Char)}
    (h : Shows text banners) (hmore : Shows more others) :
    Shows (text ++ more) (banners ++ others) := by
  obtain ⟨rows, rfl, hrows, rfl⟩ := h
  obtain ⟨moreRows, rfl, hmoreRows, rfl⟩ := hmore
  exact ⟨rows ++ moreRows, List.flatMap_append.symm, List.forall_mem_append.mpr ⟨hrows, hmoreRows⟩,
    List.filter_append _ _⟩

theorem flatMap {α : Type} {items : List α} {text : α → List Char}
    {banners : α → List (List Char)} (h : ∀ item ∈ items, Shows (text item) (banners item)) :
    Shows (items.flatMap text) (items.flatMap banners) := by
  induction items with
  | nil => exact nil
  | cons item items ih =>
      obtain ⟨hitem, hitems⟩ := List.forall_mem_cons.mp h
      exact hitem.append (ih hitems)

theorem quiet {α : Type} {items : List α} {text : α → List Char}
    (h : ∀ item ∈ items, Shows (text item) []) : Shows (items.flatMap text) [] := by
  have hnone : (items.flatMap fun _ => ([] : List (List Char))) = [] :=
    List.flatMap_eq_nil_iff.mpr fun _ _ => rfl
  rw [← hnone]
  exact flatMap h

/-- The signs in which rows of code end. No banner ends in one of them. -/
def rowEnds : List Char := [';', '{', '}', '/', '*', 'e']

theorem notMem_rowEnds {c : Char} (h : c ∈ '\n' :: '\r' :: bannerEnds) : c ∉ rowEnds := by
  revert c
  decide

theorem of_not_banner {row : List Char} (hfeed : '\n' ∉ row) (hreturn : row.getLast? ≠ some '\r')
    (hnot : ∀ l, bannerRow l ≠ row) : Shows (row ++ ['\n']) [] := by
  refine ⟨[row], (List.append_nil _).symm, List.forall_mem_singleton.mpr ⟨hfeed, hreturn⟩, ?_⟩
  rw [List.filter_eq_nil_iff, List.forall_mem_singleton]
  intro hbanner
  obtain ⟨l, -, hl⟩ := exists_of_isBannerRow hbanner
  exact hnot l hl

theorem of_row {row : List Char} (hfeed : '\n' ∉ row)
    (hall : row.getLast?.all (· ∈ rowEnds) = true) : Shows (row ++ ['\n']) [] := by
  have hends (c : Char) (hlast : row.getLast? = some c) : c ∈ rowEnds :=
    of_decide_eq_true ((Option.all_eq_true _ _).mp hall c hlast)
  apply of_not_banner hfeed
  · exact fun hreturn => notMem_rowEnds (by decide) (hends '\r' hreturn)
  · rintro l rfl
    obtain ⟨-, c, hc, hlast⟩ := bannerRow_ends l
    exact notMem_rowEnds (by simp [hc]) (hends c hlast)

theorem of_bannerRow (l : Label) : Shows (bannerRow l ++ ['\n']) [bannerRow l] := by
  obtain ⟨hfeed, c, hc, hlast⟩ := bannerRow_ends l
  refine ⟨[bannerRow l], (List.append_nil _).symm, ?_, ?_⟩
  · rw [List.forall_mem_singleton]
    refine ⟨hfeed, fun hreturn => ?_⟩
    obtain rfl : c = '\r' := Option.some.inj (hlast.symm.trans hreturn)
    exact absurd hc (by decide)
  · rw [List.filter_cons_of_pos (isBannerRow_bannerRow l), List.filter_nil]

theorem of_feed : Shows ['\n'] [] := by
  have hfeed : Shows ([] ++ ['\n']) [] := of_row (by simp) (by simp)
  exact hfeed

theorem lines_eq {text : List Char} {banners : List (List Char)} (h : Shows text banners) :
    text = ended (lines text) ∧ (lines text).filter isBannerRow = banners := by
  obtain ⟨rows, rfl, hrows, hfilter⟩ := h
  have hlines : lines (ended rows) = rows :=
    lines_ended (fun row hrow => (hrows row hrow).1) fun row hrow => (hrows row hrow).2
  rw [hlines]
  exact ⟨rfl, hfilter⟩

end Shows

/-- A row of a comment begins with blanks and a star, and not as many blanks as a banner has. -/
theorem bannerRow_ne_margin {indent : List Char} (hindent : indent = [] ∨ indent = "    ".toList)
    (l : Label) (line : List Char) : bannerRow l ≠ margin indent ++ line := by
  intro heq
  rcases hindent with rfl | rfl
  · have hsecond : some ' ' = some '*' := congrArg (·[1]?) heq
    exact absurd hsecond (by decide)
  · have hfifth : some '/' = some ' ' := congrArg (·[4]?) heq
    exact absurd hfifth (by decide)

theorem shows_javadoc (w : Rewriting) (doc : Doc) (indent : String)
    (hindent : indent.toList = [] ∨ indent.toList = "    ".toList) :
    Shows (w.javadoc doc indent).toList [] := by
  by_cases hnil : w.docLines doc = []
  · rw [javadoc, hnil]
    exact .nil
  · have hfeed : '\n' ∉ indent.toList := by
      rcases hindent with hempty | hfour
      · simp [hempty]
      · simp [hfour]
    have hopening : Shows (opening indent.toList ++ ['\n']) [] :=
      .of_row (by simp [opening, hfeed]) (by simp [opening, Shows.rowEnds])
    have hclosing : Shows (closing indent.toList ++ ['\n']) [] :=
      .of_row (by simp [closing, hfeed]) (by simp [closing, Shows.rowEnds])
    have hlines : Shows ((w.docLines doc).flatMap fun line =>
        margin indent.toList ++ line.toList ++ ['\n']) [] := by
      refine .quiet fun line hline => ?_
      obtain ⟨htidy, hnone⟩ := tidy_of_mem_docLines hline
      refine .of_not_banner (by simp [margin, hfeed, hnone]) ?_ fun l => bannerRow_ne_margin hindent l _
      rw [List.getLast?_append_of_ne_nil _ htidy.nonempty]
      intro hreturn
      exact absurd (htidy.back '\r' hreturn) (by decide +kernel)
    have hall := (hopening.append hlines).append hclosing
    rw [javadoc, toList_commentBlock hnil]
    simpa [ended, framed, List.flatMap_map] using hall

theorem mem_of_mem_intercalate {c : Char} {sep : List Char} {parts : List (List Char)}
    (h : c ∈ sep.intercalate parts) : c ∈ sep ∨ ∃ part ∈ parts, c ∈ part := by
  induction parts with
  | nil => cases h
  | cons part parts ih =>
      cases parts with
      | nil => exact Or.inr ⟨part, by simp, by simpa using h⟩
      | cons next parts =>
          rw [List.intercalate_cons_cons, List.mem_append, List.mem_append] at h
          rcases h with (hpart | hsep) | hrest
          · exact Or.inr ⟨part, List.mem_cons_self, hpart⟩
          · exact Or.inl hsep
          · refine (ih hrest).imp_right ?_
            rintro ⟨other, hother, hc⟩
            exact ⟨other, List.mem_cons_of_mem part hother, hc⟩

/-- Whether a text goes on over no second line. -/
def Unbroken (s : String) : Prop := '\n' ∉ s.toList

instance (s : String) : Decidable (Unbroken s) := inferInstanceAs (Decidable ('\n' ∉ s.toList))

namespace Unbroken

theorem append {s t : String} (hs : Unbroken s) (ht : Unbroken t) : Unbroken (s ++ t) := by
  rw [Unbroken, String.toList_append, List.mem_append]
  exact not_or.mpr ⟨hs, ht⟩

theorem intercalate {sep : String} {parts : List String} (hsep : Unbroken sep)
    (h : ∀ part ∈ parts, Unbroken part) : Unbroken (sep.intercalate parts) := by
  rw [Unbroken, String.toList_intercalate]
  intro hmem
  rcases mem_of_mem_intercalate hmem with hmem | ⟨text, htext, hmem⟩
  · exact hsep hmem
  · obtain ⟨part, hpart, rfl⟩ := List.mem_map.mp htext
    exact h part hpart hmem

theorem words {parts : List String} (h : ∀ part ∈ parts, Unbroken part) :
    Unbroken (words parts) :=
  intercalate (by decide) fun part hpart => h part (List.mem_filter.mp hpart).1

theorem clause {keyword : String} {names : List String} (hkeyword : Unbroken keyword)
    (h : ∀ name ∈ names, Unbroken name) : Unbroken (clause keyword names) := by
  unfold Skeleton.clause
  split
  · decide
  · exact (((by decide : Unbroken " ").append hkeyword).append (by decide)).append
      (intercalate (by decide) h)

end Unbroken

/-- The texts of a member that are written, its name also as it is declared. -/
def memberTexts (w : Rewriting) (m : Member) : List String :=
  m.name :: w.typeName m.type :: match m.kind with
    | .field _ => []
    | .method _ _ _ params => [w.methodName m.name, w.params params]

/-- The names that a class and its bases and members are declared with, and what is written for the
names, types and parameters of its members. -/
def writtenTexts (w : Rewriting) (c : ClassDecl) : List String :=
  c.name :: c.bases.map (·.name) ++ c.members.flatMap (memberTexts w)

theorem unbroken_signature {w : Rewriting} {m : Member}
    (h : ∀ text ∈ memberTexts w m, Unbroken text) : Unbroken (signature w m) := by
  have hkeyword : Unbroken m.visibility.keyword := by cases m.visibility <;> decide
  have hmodifiers : ∀ part ∈ modifiers m, Unbroken part := by
    cases hs : m.isStatic <;> cases hp : m.isPureVirtual <;> cases hm : m.isMutable <;>
      simp only [modifiers, hs, hp, hm] <;> decide
  have hfront : ∀ part ∈ m.visibility.keyword :: modifiers m, Unbroken part :=
    List.forall_mem_cons.mpr ⟨hkeyword, hmodifiers⟩
  unfold memberTexts at h
  unfold signature
  split
  · next hk =>
      simp only [hk, List.forall_mem_cons] at h
      exact .words (List.forall_mem_append.mpr ⟨hfront, by simp [h.1, h.2.1]⟩)
  · next hk =>
      simp only [hk, List.forall_mem_cons] at h
      obtain ⟨-, htype, hname, hparams, -⟩ := h
      have hcall := ((hname.append (by decide : Unbroken "(")).append hparams).append
        (by decide : Unbroken ")")
      exact .words (List.forall_mem_append.mpr ⟨hfront, by simp [htype, hcall]⟩)

theorem unbroken_headerLine {w : Rewriting} {c : ClassDecl} (hname : Unbroken c.name)
    (hbases : ∀ b ∈ c.bases, Unbroken b.name) : Unbroken (headerLine w c) := by
  have hvisibility : Unbroken c.visibility.keyword := by cases c.visibility <;> decide
  have hkind : Unbroken c.kind.keyword := by cases c.kind <;> decide
  have hclass : Unbroken (w.className c.name) := fun hmem =>
    hname ((w.className_sublist c.name).subset hmem)
  have hbasesOf (inheritance : Inheritance) :
      ∀ name ∈ (c.basesOf inheritance).map w.stripNamespace, Unbroken name := by
    intro stripped hstripped
    obtain ⟨name, hmem, rfl⟩ := List.mem_map.mp hstripped
    obtain ⟨b, hb, rfl⟩ := List.mem_map.mp hmem
    exact fun hfeed => hbases b (List.mem_filter.mp hb).1
      ((w.stripNamespace_sublist b.name).subset hfeed)
  have hwords : Unbroken (words [c.visibility.keyword, c.kind.keyword, w.className c.name]) :=
    .words (by simp [hvisibility, hkind, hclass])
  exact (hwords.append (.clause (by decide) (hbasesOf .supertype))).append
    (.clause (by decide) (hbasesOf .capability))

namespace Shows

theorem of_code {code : String} {last : Char} (hcode : Unbroken code) (hlast : last ∈ rowEnds) :
    Shows (code.toList ++ [last] ++ ['\n']) [] := by
  apply of_row
  · rw [List.mem_append, List.mem_singleton]
    refine not_or.mpr ⟨hcode, ?_⟩
    rintro rfl
    exact notMem_rowEnds List.mem_cons_self hlast
  · simpa using hlast

theorem of_stub {code : String} (hcode : Unbroken code) : Shows (code ++ stubBody).toList [] := by
  have hopen : Shows ((code ++ " ").toList ++ ['\x7b'] ++ ['\n']) [] :=
    of_code (hcode.append (by decide)) (by decide)
  have hthrow : Shows ("        throw new UnsupportedOperationException();".toList ++ ['\n']) [] :=
    of_row (by decide) (by decide)
  have hclose : Shows ("    \x7d".toList ++ ['\n']) [] := of_row (by decide) (by decide)
  have hstub := ((hopen.append hthrow).append hclose).append of_feed
  unfold stubBody
  simpa using hstub

end Shows

section Parts

variable {w : Rewriting}

theorem shows_headerText {c : ClassDecl} (hname : Unbroken c.name)
    (hbases : ∀ b ∈ c.bases, Unbroken b.name) : Shows (headerText w c).toList [] := by
  have hcode : Unbroken (headerLine w c ++ " ") :=
    (unbroken_headerLine hname hbases).append (by decide)
  have hheader := (shows_javadoc w c.doc "" (Or.inl rfl)).append
    (Shows.of_code hcode (by decide : '\x7b' ∈ Shows.rowEnds))
  simpa [headerText] using hheader

theorem shows_bannerText (l : Label) : Shows (bannerText l).toList [bannerRow l] := by
  have hbar : Shows ("    //".toList ++ ['\n']) [] := .of_row (by decide) (by decide)
  have hframed := ((Shows.of_feed.append .of_feed).append hbar).append
    ((Shows.of_bannerRow l).append (hbar.append .of_feed))
  unfold bannerText
  unfold bannerRow at hframed ⊢
  generalize l.banner = banner at hframed ⊢
  simpa using hframed

theorem shows_declaration {m : Member} (h : ∀ text ∈ memberTexts w m, Unbroken text) :
    Shows (declaration w m).toList [] := by
  have hdoc := shows_javadoc w m.doc "    " (Or.inr rfl)
  have hsignature : Unbroken ("    " ++ signature w m) :=
    (by decide : Unbroken "    ").append (unbroken_signature h)
  unfold declaration
  split
  · have hfield := hdoc.append (Shows.of_code hsignature (by decide : ';' ∈ Shows.rowEnds))
    simpa using hfield
  · next pureVirtual overrides isConst params _ =>
      have hmark : Shows (if overrides then "    @Override\n" else "").toList [] := by
        have hoverride : Shows ("    @Override".toList ++ ['\n']) [] :=
          .of_row (by decide) (by decide)
        cases overrides with
        | false => exact .nil
        | true => simpa using hoverride
      have hcode : Unbroken ("    " ++ signature w m ++ if isConst then " /* @ReadOnly */" else "") :=
        hsignature.append (by cases isConst <;> decide)
      have hfront := hdoc.append hmark
      by_cases habstract : pureVirtual && !m.isStatic
      · have hend := (Shows.of_code hcode (by decide : ';' ∈ Shows.rowEnds)).append .of_feed
        simpa [habstract] using hfront.append hend
      · simpa [habstract] using hfront.append (Shows.of_stub hcode)

theorem shows_groupText {g : Decl.Group}
    (h : ∀ m ∈ g.members, ∀ text ∈ memberTexts w m, Unbroken text) :
    Shows (groupText w g).toList [bannerRow g.label] := by
  have hmembers : Shows (g.members.flatMap fun m => (declaration w m).toList) [] :=
    .quiet fun m hm => shows_declaration (h m hm)
  have hgroup := (shows_bannerText g.label).append hmembers
  simpa [groupText, String.toList_join, List.flatMap_map] using hgroup

theorem shows_blockText {groups : List Decl.Group}
    (h : ∀ g ∈ groups, ∀ m ∈ g.members, ∀ text ∈ memberTexts w m, Unbroken text) :
    Shows (blockText w groups).toList (groups.map fun g => bannerRow g.label) := by
  have hgroups : Shows (groups.flatMap fun g => (groupText w g).toList)
      (groups.flatMap fun g => [bannerRow g.label]) :=
    .flatMap fun g hg => shows_groupText (h g hg)
  rw [blockText, String.toList_join, List.flatMap_map, List.map_eq_flatMap]
  exact hgroups

end Parts

theorem mem_of_mem_shownGroups {labels : List Label} {members : List Member} {g : Decl.Group}
    (hg : g ∈ shownGroups labels members) {m : Member} (hm : m ∈ g.members) : m ∈ members := by
  obtain ⟨l, -, rfl⟩ := List.mem_map.mp (List.mem_filter.mp hg).1
  exact (List.mem_filter.mp hm).1

theorem labels_shownGroups_sublist (labels : List Label) (members : List Member) :
    ((shownGroups labels members).map (·.label)).Sublist labels := by
  have hall : ((labels.map fun l => (⟨l, members.filter l.covers⟩ : Decl.Group)).map
      (·.label)) = labels := by
    rw [List.map_map]
    exact List.map_id labels
  have hkept := (List.filter_sublist (p := fun g : Decl.Group => !g.members.isEmpty)
    (l := labels.map fun l => ⟨l, members.filter l.covers⟩)).map (·.label)
  rwa [hall] at hkept

section Code

variable (options : Options) (c : ClassDecl)

/-- The groups that are written, in the order in which they are written. -/
def writtenGroups : List Decl.Group :=
  (orderedGroups options c).filter fun g => !g.members.isEmpty

theorem writtenGroups_eq :
    writtenGroups options c = match options.order with
      | .fieldsFirst => shownGroups fieldOrder (c.members.filter (·.isField)) ++
          shownGroups methodOrder (c.members.filter (·.isMethod))
      | .methodsFirst => shownGroups methodOrder (c.members.filter (·.isMethod)) ++
          shownGroups fieldOrder (c.members.filter (·.isField)) := by
  have hfields : c.selection.fields.filter (fun g => !g.members.isEmpty) =
      shownGroups fieldOrder (c.members.filter (·.isField)) := by
    rw [ClassDecl.selection, Selection.ofMembers_eq]
    exact shownGroups_blockOf Member.category_mem_fields c.members
  have hmethods : c.selection.methods.filter (fun g => !g.members.isEmpty) =
      shownGroups methodOrder (c.members.filter (·.isMethod)) := by
    rw [ClassDecl.selection, Selection.ofMembers_eq]
    exact shownGroups_blockOf Member.category_mem_methods c.members
  unfold writtenGroups orderedGroups
  cases options.order with
  | fieldsFirst => rw [List.filter_append, hfields, hmethods]
  | methodsFirst => rw [List.filter_append, hfields, hmethods]

theorem code_eq_written (rules : Rules.RuleSet) :
    (generate rules options c).code =
      headerText ⟨rules, options.ns⟩ c ++ blockText ⟨rules, options.ns⟩ (writtenGroups options c) ++
        "\x7d\n" := by
  have happend (groups others : List Decl.Group) :
      blockText ⟨rules, options.ns⟩ (groups ++ others) =
        blockText ⟨rules, options.ns⟩ groups ++ blockText ⟨rules, options.ns⟩ others := by
    rw [blockText, List.map_append, String.join_append]
    rfl
  rw [generate, writtenGroups_eq]
  cases options.order with
  | fieldsFirst => simp only [code_fieldsFirst, happend, String.append_assoc]
  | methodsFirst => simp only [code_methodsFirst, happend, String.append_assoc]

theorem mem_of_mem_writtenGroups {g : Decl.Group} (hg : g ∈ writtenGroups options c) {m : Member}
    (hm : m ∈ g.members) : m ∈ c.members := by
  rw [writtenGroups_eq] at hg
  cases horder : options.order <;> rw [horder] at hg <;>
    rcases List.mem_append.mp hg with hg | hg <;>
    exact (List.mem_filter.mp (mem_of_mem_shownGroups hg hm)).1

theorem nodup_writtenGroups : ((writtenGroups options c).map fun g => bannerRow g.label).Nodup := by
  have hfields := labels_shownGroups_sublist fieldOrder (c.members.filter (·.isField))
  have hmethods := labels_shownGroups_sublist methodOrder (c.members.filter (·.isMethod))
  have hnodup := nodup_bannerRows
  have hswapped : ((methodOrder ++ fieldOrder).map bannerRow).Nodup :=
    (List.perm_append_comm.map bannerRow).nodup hnodup
  have hlabels : (writtenGroups options c).map (fun g => bannerRow g.label) =
      ((writtenGroups options c).map (·.label)).map bannerRow := by
    rw [List.map_map]
    rfl
  rw [hlabels, writtenGroups_eq]
  cases options.order with
  | fieldsFirst =>
      rw [List.map_append]
      exact hnodup.sublist ((hfields.append hmethods).map bannerRow)
  | methodsFirst =>
      rw [List.map_append]
      exact hswapped.sublist ((hmethods.append hfields).map bannerRow)

/-- If what a class is written with has no line feeds, then the lines of its code that read like
banners are those of the groups with members, each once and in their order, whatever stands in the
documentation. -/
theorem filter_lines_code (rules : Rules.RuleSet)
    (h : ∀ text ∈ writtenTexts ⟨rules, options.ns⟩ c, Unbroken text) :
    let code := (generate rules options c).code.toList
    let banners := (writtenGroups options c).map fun g => bannerRow g.label
    code = ended (lines code) ∧ (lines code).filter isBannerRow = banners ∧ banners.Nodup := by
  intro code banners
  obtain ⟨hdeclared, hmembers⟩ := List.forall_mem_append.mp h
  obtain ⟨hname, hbases⟩ := List.forall_mem_cons.mp hdeclared
  have hheader : Shows (headerText ⟨rules, options.ns⟩ c).toList [] :=
    shows_headerText hname (List.forall_mem_map.mp hbases)
  have hblock : Shows (blockText ⟨rules, options.ns⟩ (writtenGroups options c)).toList banners :=
    shows_blockText fun g hg m hm text htext =>
      hmembers text (List.mem_flatMap.mpr ⟨m, mem_of_mem_writtenGroups options c hg hm, htext⟩)
  have hbrace : Shows (['\x7d'] ++ ['\n']) [] := .of_row (by decide) (by decide)
  have hcode : Shows code banners := by
    have hall := (hheader.append hblock).append hbrace
    simp only [code, code_eq_written]
    simpa using hall
  obtain ⟨hlines, hfilter⟩ := hcode.lines_eq
  exact ⟨hlines, hfilter, nodup_writtenGroups options c⟩

end Code

/-- A rule for documentation that writes a line that reads like a banner. -/
def posing : Rules.RuleSet :=
  { Rules.PerTable.replicate [] with
    docs := Rules.Standard.tableOf [("x", "\n    // public fields\n")] }

/-- A class with the texts of banners for names and types, and in its documentation. -/
def disguised : ClassDecl where
  name := "Lib::    // public methods"
  kind := .structKind
  visibility := .package
  bases := [⟨"// public fields", .capability⟩]
  doc := ⟨["x"], ["    // public methods"]⟩
  members := [
    ⟨"methods", [.text "    // public"], .package, false, .field false, ⟨["x"], []⟩⟩,
    ⟨"// public", [], .pub, true, .method true true true [⟨"fields", [.ref "// public"]⟩],
      ⟨[], ["x", "    // public methods"]⟩⟩]

theorem filter_lines_code_disguised :
    (∀ text ∈ writtenTexts ⟨posing, "Lib"⟩ disguised, Unbroken text) ∧
      (lines (generate posing ⟨"Lib", .methodsFirst, "java"⟩ disguised).code.toList).filter
          isBannerRow =
        ["    // public static methods".toList, "    // @PackagePrivate fields".toList] := by
  have h : ∀ text ∈ writtenTexts ⟨posing, "Lib"⟩ disguised, Unbroken text := by decide +kernel
  obtain ⟨-, hfilter, -⟩ := filter_lines_code ⟨"Lib", .methodsFirst, "java"⟩ disguised posing h
  refine ⟨h, hfilter.trans ?_⟩
  decide +kernel

end ClassSkeleton.Skeleton
