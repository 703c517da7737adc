import ClassSkeleton.Proofs.Decl.Placing
import ClassSkeleton.Skeleton.Emit

namespace ClassSkeleton.Skeleton

/-!
# The layout of a skeleton

A skeleton is its header, one block of fields and one of methods and a closing brace. A block
is the groups that have members, by access and by modifier, each with its banner in front and
one declaration for each member. The order of the two blocks is all that the member order
changes.
-/

open Decl

def groupOrder (modifiers : List Category) : List Label :=
  [.pub, .prot, .priv, .package].flatMap fun access => modifiers.map (⟨access, ·⟩)

def fieldOrder : List Label := groupOrder [.field .concrete, .field .mutable, .field .static]

def methodOrder : List Label := groupOrder [.method .concrete, .method .abstract, .method .static]

/-- The groups of a block that have members, each with its members in the order given. -/
def shownGroups (labels : List Label) (members : List Member) : List Decl.Group :=
  (labels.map fun l => (⟨l, members.filter l.covers⟩ : Decl.Group)).filter
    fun g => !g.members.isEmpty

/-- The words between the access level of a member and its type. -/
def modifiers (m : Member) : List String :=
  (if m.isStatic then ["static"] else []) ++
    (if m.isPureVirtual && !m.isStatic then ["abstract"] else []) ++
    if m.isMutable then ["/* @Mutable */"] else []

def stubBody : String := " \x7b\n        throw new UnsupportedOperationException();\n    \x7d\n\n"

def signature (w : Rewriting) (m : Member) : String :=
  match m.kind with
  | .field _ => words (m.visibility.keyword :: modifiers m ++ [w.typeName m.type, m.name])
  | .method _ _ _ params =>
    words (m.visibility.keyword :: modifiers m ++
      [w.typeName m.type, w.methodName m.name ++ "(" ++ w.params params ++ ")"])

def declaration (w : Rewriting) (m : Member) : String :=
  match m.kind with
  | .field _ => w.javadoc m.doc "    " ++ "    " ++ signature w m ++ ";\n"
  | .method pureVirtual overrides isConst _ =>
    w.javadoc m.doc "    " ++ (if overrides then "    @Override\n" else "") ++ "    " ++
      signature w m ++ (if isConst then " /* @ReadOnly */" else "") ++
      if pureVirtual && !m.isStatic then ";\n\n" else stubBody

def bannerText (l : Label) : String :=
  "\n\n" ++ "    //\n" ++ "    // " ++ l.banner ++ "\n" ++ "    //\n" ++ "\n"

def groupText (w : Rewriting) (g : Decl.Group) : String :=
  bannerText g.label ++ String.join (g.members.map (declaration w))

def blockText (w : Rewriting) (groups : List Decl.Group) : String :=
  String.join (groups.map (groupText w))

def headerText (w : Rewriting) (c : ClassDecl) : String :=
  w.javadoc c.doc "" ++ headerLine w c ++ " \x7b\n"

theorem indentation_one : indentation 1 = "    " := rfl

theorem indentation_two : indentation 2 = "        " := rfl

namespace Buffer

@[simp] theorem finish_line (b : Buffer) (level : Nat) (text : String) :
    (b.line level text).finish = b.finish ++ indentation level ++ text ++ "\n" := by
  simp [line]

theorem finish_header (b : Buffer) (w : Rewriting) (c : ClassDecl) :
    (b.header w c).finish = b.finish ++ headerText w c := by
  rw [← String.toList_inj]
  simp [header, headerText]

theorem finish_banner (b : Buffer) (l : Label) :
    (b.banner l.banner).finish = b.finish ++ bannerText l := by
  rw [← String.toList_inj]
  simp [banner, bannerText, indentation_one]

end Buffer

theorem fieldLine_eq_signature (w : Rewriting) {m : Member} (hm : m.isField = true) :
    fieldLine w m = signature w m := by
  cases hk : m.kind with
  | method => simp [Member.isField, hk] at hm
  | field isMutable =>
    cases isMutable <;> cases hs : m.isStatic <;>
      simp [fieldLine, signature, words, modifiers, Member.isMutable, Member.isPureVirtual, hk, hs,
        List.filter_cons]

theorem methodLine_eq_signature (w : Rewriting) {m : Member} {pureVirtual overrides isConst : Bool}
    {params : List Param} (hk : m.kind = .method pureVirtual overrides isConst params) :
    methodLine w m (pureVirtual && !m.isStatic) params = signature w m := by
  cases pureVirtual <;> cases hs : m.isStatic <;>
    simp [methodLine, signature, words, modifiers, Member.isMutable, Member.isPureVirtual, hk, hs,
      List.filter_cons]

namespace Buffer

theorem finish_field (b : Buffer) (w : Rewriting) {m : Member} (hm : m.isField = true) :
    (b.field w m).finish = b.finish ++ declaration w m := by
  cases hk : m.kind with
  | method => simp [Member.isField, hk] at hm
  | field isMutable =>
    rw [← String.toList_inj]
    simp [field, declaration, hk, fieldLine_eq_signature w hm, indentation_one]

theorem finish_method (b : Buffer) (w : Rewriting) {m : Member}
    {pureVirtual overrides isConst : Bool} {params : List Param}
    (hk : m.kind = .method pureVirtual overrides isConst params) :
    (b.method w m (pureVirtual && !m.isStatic) overrides isConst params).finish =
      b.finish ++ declaration w m := by
  rw [← String.toList_inj]
  cases overrides <;> cases isConst <;> cases ha : (pureVirtual && !m.isStatic) <;>
    simp [method, declaration, hk, ← methodLine_eq_signature w hk, ha, stubBody, stub,
      indentation_one, indentation_two]

theorem finish_member (b : Buffer) (w : Rewriting) (m : Member) :
    (b.member w m.label m).finish = b.finish ++ declaration w m := by
  cases hk : m.kind with
  | field isMutable =>
    have hm : m.isField = true := by simp [Member.isField, hk]
    -- The label of a field is in the block of fields, so no field meets the emitter of methods.
    have hmember : b.member w m.label m = b.field w m := by
      cases hs : m.isStatic <;> cases isMutable <;>
        simp [member, Member.label, Member.category, hk, hs]
    rw [hmember, finish_field b w hm]
  | method pureVirtual overrides isConst params =>
    have hmember : b.member w m.label m =
        b.method w m (pureVirtual && !m.isStatic) overrides isConst params := by
      cases hs : m.isStatic <;> cases pureVirtual <;>
        simp [member, Member.label, Member.category, hk, hs]
    rw [hmember, finish_method b w hk]

theorem finish_members (b : Buffer) (w : Rewriting) {l : Label} {members : List Member}
    (hl : ∀ m ∈ members, m.label = l) :
    (members.foldl (fun b m => b.member w l m) b).finish =
      b.finish ++ String.join (members.map (declaration w)) := by
  induction members generalizing b with
  | nil => simp
  | cons m members ih =>
    obtain ⟨hm, hrest⟩ := List.forall_mem_cons.mp hl
    rw [List.foldl_cons, ih _ hrest, ← hm, finish_member, List.map_cons, String.join_cons,
      String.append_assoc]

theorem finish_block (b : Buffer) (w : Rewriting) {groups : List Decl.Group}
    (hgroups : ∀ g ∈ groups, ∀ m ∈ g.members, m.label = g.label) :
    (b.block w groups).finish =
      b.finish ++ blockText w (groups.filter fun g => !g.members.isEmpty) := by
  induction groups generalizing b with
  | nil => simp [block, blockText]
  | cons g groups ih =>
    obtain ⟨hg, hrest⟩ := List.forall_mem_cons.mp hgroups
    have hstep : (b.block w (g :: groups)) = (b.group w g).block w groups := rfl
    rw [hstep, ih _ hrest]
    cases hempty : g.members.isEmpty with
    | true => simp [group, hempty]
    | false =>
      have htext : (b.group w g).finish = b.finish ++ groupText w g := by
        rw [group, if_neg (by simp [hempty]), finish_members _ w hg, finish_banner, groupText,
          String.append_assoc]
      simp [htext, hempty, blockText, String.append_assoc]

end Buffer

/-- A block holds the groups of its own members, whatever other members the class has. -/
theorem shownGroups_blockOf {categories : List Category} {kindOf : Member → Bool}
    (hkind : ∀ m, m.category ∈ categories ↔ kindOf m = true) (members : List Member) :
    (Selection.blockOf categories members).filter (fun g => !g.members.isEmpty) =
      shownGroups (groupOrder categories) (members.filter kindOf) := by
  refine congrArg _ (List.map_congr_left fun l hl => congrArg (Decl.Group.mk l) ?_)
  rw [Label.filter_covers, List.filter_filter]
  refine List.filter_congr fun m _ => Bool.eq_iff_iff.mpr ?_
  rw [Bool.and_eq_true, decide_eq_true_iff]
  refine ⟨fun h => ⟨h, (hkind m).mp ?_⟩, And.left⟩
  have hcategory : m.category = l.category := congrArg Label.category h
  exact hcategory ▸ (Label.mem_block l categories).mp hl

theorem flatMap_members_filter (groups : List Decl.Group) :
    (groups.filter fun g => !g.members.isEmpty).flatMap (·.members) =
      groups.flatMap (·.members) := by
  induction groups with
  | nil => rfl
  | cons g groups ih =>
    cases hg : g.members with
    | nil => simp [hg, ih]
    | cons m ms => simp [hg, ih]

theorem perm_shownGroups {categories : List Category} {members : List Member}
    (hnodup : (groupOrder categories).Nodup) (hall : ∀ m ∈ members, m.category ∈ categories) :
    ((shownGroups (groupOrder categories) members).flatMap (·.members)).Perm members := by
  have hcovered : members.filter (·.label ∈ groupOrder categories) = members :=
    List.filter_eq_self.mpr fun m hm => decide_eq_true <|
      (Label.mem_block m.label categories).mpr (hall m hm)
  rw [shownGroups, flatMap_members_filter, List.flatMap_map]
  simp only [Label.filter_covers]
  exact (perm_flatMap_filter Member.label members hnodup).trans (.of_eq hcovered)

theorem Buffer.finish_blockOf (b : Buffer) (w : Rewriting) {categories : List Category}
    {kindOf : Member → Bool} (hkind : ∀ m, m.category ∈ categories ↔ kindOf m = true)
    (members : List Member) :
    (b.block w (Selection.blockOf categories members)).finish =
      b.finish ++ blockText w (shownGroups (groupOrder categories) (members.filter kindOf)) := by
  have hlabel : ∀ g ∈ Selection.blockOf categories members, ∀ m ∈ g.members,
      m.label = g.label := by
    intro g hg m hm
    obtain ⟨l, -, rfl⟩ := List.mem_map.mp hg
    exact of_decide_eq_true (List.mem_filter.mp hm).2
  rw [finish_block b w hlabel, shownGroups_blockOf hkind]

section Layout

variable (w : Rewriting) (c : ClassDecl)

theorem finish_skeleton {first second : List Category} {isFirst isSecond : Member → Bool}
    (hfirst : ∀ m, m.category ∈ first ↔ isFirst m = true)
    (hsecond : ∀ m, m.category ∈ second ↔ isSecond m = true) :
    ((((Buffer.empty.header w c).block w (Selection.blockOf first c.members)).block w
      (Selection.blockOf second c.members)).line 0 "\x7d").finish =
      headerText w c ++ blockText w (shownGroups (groupOrder first) (c.members.filter isFirst)) ++
        blockText w (shownGroups (groupOrder second) (c.members.filter isSecond)) ++ "\x7d\n" := by
  have hbrace : "\x7d\n" = indentation 0 ++ "\x7d" ++ "\n" := rfl
  rw [Buffer.finish_line, Buffer.finish_blockOf _ w hsecond, Buffer.finish_blockOf _ w hfirst,
    Buffer.finish_header, hbrace]
  simp only [Buffer.finish_empty, String.empty_append, String.append_assoc]

theorem code_fieldsFirst :
    code w .fieldsFirst c c.selection = headerText w c ++
      blockText w (shownGroups fieldOrder (c.members.filter (·.isField))) ++
      blockText w (shownGroups methodOrder (c.members.filter (·.isMethod))) ++ "\x7d\n" := by
  rw [ClassDecl.selection, Selection.ofMembers_eq]
  exact finish_skeleton w c Member.category_mem_fields Member.category_mem_methods

theorem code_methodsFirst :
    code w .methodsFirst c c.selection = headerText w c ++
      blockText w (shownGroups methodOrder (c.members.filter (·.isMethod))) ++
      blockText w (shownGroups fieldOrder (c.members.filter (·.isField))) ++ "\x7d\n" := by
  rw [ClassDecl.selection, Selection.ofMembers_eq]
  exact finish_skeleton w c Member.category_mem_methods Member.category_mem_fields

/-- Both blocks together declare every member of the class once. -/
theorem perm_shown_members :
    ((shownGroups fieldOrder (c.members.filter (·.isField)) ++
      shownGroups methodOrder (c.members.filter (·.isMethod))).flatMap (·.members)).Perm
        c.members := by
  have hfields : ∀ m ∈ c.members.filter (·.isField), m.category ∈ Category.fields :=
    fun m hm => (m.category_mem_fields).mpr (List.mem_filter.mp hm).2
  have hmethods : ∀ m ∈ c.members.filter (·.isMethod), m.category ∈ Category.methods :=
    fun m hm => (m.category_mem_methods).mpr (List.mem_filter.mp hm).2
  rw [List.flatMap_append]
  exact ((perm_shownGroups Label.nodup_block_fields hfields).append
    (perm_shownGroups Label.nodup_block_methods hmethods)).trans
      (List.filter_append_perm (·.isField) c.members)

end Layout

theorem mem_modifiers_static (m : Member) : "static" ∈ modifiers m ↔ m.isStatic = true := by
  cases hs : m.isStatic <;> cases hp : m.isPureVirtual <;> cases hm : m.isMutable <;>
    simp [modifiers, hs, hp, hm]

theorem mem_modifiers_abstract (m : Member) :
    "abstract" ∈ modifiers m ↔ m.isPureVirtual = true ∧ m.isStatic = false := by
  cases hs : m.isStatic <;> cases hp : m.isPureVirtual <;> cases hm : m.isMutable <;>
    simp [modifiers, hs, hp, hm]

/-- What a declaration ends in tells a method that is pure virtual and not static from every
other method. -/
theorem declaration_ends (w : Rewriting) {m : Member} (hm : m.isMethod = true) :
    ((∃ front, declaration w m = front ++ ";\n\n") ↔
        m.isPureVirtual = true ∧ m.isStatic = false) ∧
      ((∃ front, declaration w m = front ++ stubBody) ↔
        ¬(m.isPureVirtual = true ∧ m.isStatic = false)) := by
  have hends : ∀ front front' : String, front ++ ";\n\n" ≠ front' ++ stubBody := by
    intro front front' h
    have hchars := congrArg (fun s : String => s.toList.reverse) h
    simp [stubBody] at hchars
  cases hk : m.kind with
  | field => simp [Member.isMethod, Member.isField, hk] at hm
  | method pureVirtual overrides isConst params =>
    have hpure : m.isPureVirtual = pureVirtual := by simp [Member.isPureVirtual, hk]
    by_cases ha : m.isPureVirtual = true ∧ m.isStatic = false
    · have hdecl : ∃ front, declaration w m = front ++ ";\n\n" :=
        ⟨_, by rw [declaration, hk]; simp only [← hpure, ha.1, ha.2]; rfl⟩
      obtain ⟨front, hfront⟩ := hdecl
      refine ⟨iff_of_true ⟨front, hfront⟩ ha, iff_of_false ?_ (not_not.mpr ha)⟩
      rintro ⟨front', hstub⟩
      exact hends front front' (hfront.symm.trans hstub)
    · have hdecl : ∃ front, declaration w m = front ++ stubBody := by
        have hbool : (pureVirtual && !m.isStatic) = false := by
          rw [← hpure]
          simpa using ha
        exact ⟨_, by rw [declaration, hk]; simp only [hbool]; rfl⟩
      obtain ⟨front, hfront⟩ := hdecl
      refine ⟨iff_of_false ?_ ha, iff_of_true ⟨front, hfront⟩ ha⟩
      rintro ⟨front', hsemicolon⟩
      exact hends front' front (hsemicolon.symm.trans hfront)

end ClassSkeleton.Skeleton
