import ClassSkeleton.Proofs.Decl.Grouping
import Mathlib.Data.List.Induction

namespace ClassSkeleton.Decl

/-!
# Placing members by slot

A member goes to the group at the slot of its label. Since the labels of a block stand in the
order of their slots, the group that is found there has that very label, and a class that has been
placed member by member is sorted by label.
-/

namespace Label

theorem slots_methods : (block Category.methods).map slot = List.range 12 := by decide

theorem slots_fields : (block Category.fields).map slot = List.range 12 := by decide

variable {categories : List Category} {n i : Nat} {l : Label}

theorem slot_of_getElem? (hslots : (block categories).map slot = List.range n)
    (h : (block categories)[i]? = some l) : l.slot = i := by
  have hslot : ((block categories).map slot)[i]? = some l.slot := by
    rw [List.getElem?_map, h, Option.map_some]
  rw [hslots, List.getElem?_eq_some_iff] at hslot
  obtain ⟨_, hi⟩ := hslot
  simpa using hi.symm

/-- A label of a block stands at its slot. -/
theorem getElem?_slot (hslots : (block categories).map slot = List.range n)
    (h : l.category ∈ categories) : (block categories)[l.slot]? = some l := by
  obtain ⟨i, hi⟩ := List.mem_iff_getElem?.mp ((mem_block l categories).mpr h)
  rwa [slot_of_getElem? hslots hi]

end Label

namespace Selection

/-- The groups of a block, each with the members of its label. -/
def blockOf (categories : List Category) (members : List Member) : List Group :=
  (Label.block categories).map fun label => ⟨label, members.filter (·.label = label)⟩

/-- The block in which a member is placed. -/
def home (s : Selection) (m : Member) : List Group :=
  match m.label.category with
  | .method _ => s.methods
  | .field _ => s.fields

section Blocks

variable {categories : List Category} {n : Nat} (members : List Member) {m : Member}

theorem getElem?_blockOf (i : Nat) : (blockOf categories members)[i]? =
    (Label.block categories)[i]?.map fun l => ⟨l, members.filter (·.label = l)⟩ :=
  List.getElem?_map

theorem blockOf_concat_of_notMem (hm : m.label.category ∉ categories) :
    blockOf categories (members ++ [m]) = blockOf categories members := by
  refine List.map_congr_left fun l hl => ?_
  have hne : m.label ≠ l := by
    rintro rfl
    exact hm ((Label.mem_block _ categories).mp hl)
  simp [List.filter_append, hne]

/-- One step changes the group of the member's label and no other. -/
theorem modify_blockOf (hslots : (Label.block categories).map Label.slot = List.range n)
    (hm : m.label.category ∈ categories) :
    (blockOf categories members).modify m.label.slot (·.add m) =
      blockOf categories (members ++ [m]) := by
  have hplace := Label.getElem?_slot hslots hm
  refine List.ext_getElem? fun i => ?_
  rw [List.getElem?_modify, getElem?_blockOf, getElem?_blockOf]
  cases hl : (Label.block categories)[i]? with
  | none => rfl
  | some l =>
    have hslot := Label.slot_of_getElem? hslots hl
    by_cases hsame : m.label = l
    · simp [hsame, hslot, Group.add, List.filter_append]
    · have hother : m.label.slot ≠ i := by
        rintro rfl
        exact hsame (Option.some.inj (hplace.symm.trans hl))
      simp [hsame, hother, List.filter_append]

end Blocks

theorem place_blockOf (members : List Member) (m : Member) :
    place ⟨blockOf Category.methods members, blockOf Category.fields members⟩ m =
      ⟨blockOf Category.methods (members ++ [m]), blockOf Category.fields (members ++ [m])⟩ := by
  cases hm : m.label.category with
  | method modifier =>
    have hmethod : m.label.category ∈ Category.methods := by
      cases modifier <;> simp [hm, Category.methods]
    have hfield : m.label.category ∉ Category.fields := by simp [hm, Category.fields]
    simp only [place, hm, modify_blockOf members Label.slots_methods hmethod,
      blockOf_concat_of_notMem members hfield]
  | field modifier =>
    have hmethod : m.label.category ∉ Category.methods := by simp [hm, Category.methods]
    have hfield : m.label.category ∈ Category.fields := by
      cases modifier <;> simp [hm, Category.fields]
    simp only [place, hm, modify_blockOf members Label.slots_fields hfield,
      blockOf_concat_of_notMem members hmethod]

/-- Members placed one after the other are sorted by label. -/
theorem ofMembers_eq (members : List Member) :
    ofMembers members = ⟨blockOf Category.methods members, blockOf Category.fields members⟩ := by
  induction members using List.reverseRecOn with
  | nil => rfl
  | append_singleton members m ih =>
    rw [ofMembers, List.foldl_append, ← ofMembers, ih, List.foldl_cons, List.foldl_nil,
      place_blockOf]

theorem length_blockOf {categories : List Category}
    (hslots : (Label.block categories).map Label.slot = List.range 12) (members : List Member) :
    (blockOf categories members).length = 12 := by
  rw [blockOf, List.length_map, ← List.length_map (f := Label.slot), hslots, List.length_range]

theorem slot_lt_length_home (members : List Member) (m : Member) :
    m.label.slot < ((ofMembers members).home m).length := by
  have hlength : ((ofMembers members).home m).length = 12 := by
    rw [ofMembers_eq, home]
    cases m.label.category
    · exact length_blockOf Label.slots_methods members
    · exact length_blockOf Label.slots_fields members
  rw [hlength]
  cases hv : m.label.visibility <;> rcases hc : m.label.category with (_ | _ | _) | (_ | _ | _) <;>
    simp [Label.slot, hv, hc, Visibility.index, Category.index]

theorem length_eq (s : Selection) : s.length = (s.groups.flatMap (·.members)).length := by
  have hfold (groups : List Group) (n : Nat) :
      groups.foldl (fun n group => n + group.members.length) n =
        n + (groups.flatMap (·.members)).length := by
    induction groups generalizing n with
    | nil => rfl
    | cons g groups ih =>
        rw [List.foldl_cons, ih, List.flatMap_cons, List.length_append, Nat.add_assoc]
  rw [length, hfold, Nat.zero_add]

theorem perm_groups (members : List Member) :
    ((ofMembers members).groups.flatMap (·.members)).Perm members := by
  have hlabels : (Label.block Category.methods ++ Label.block Category.fields).Nodup := by decide
  have hcovered : ∀ m : Member,
      m.label ∈ Label.block Category.methods ++ Label.block Category.fields := by
    intro m
    rw [List.mem_append, Label.mem_block, Label.mem_block, Member.label]
    rw [Member.category_mem_methods, Member.category_mem_fields, Member.isMethod]
    cases m.isField <;> simp
  have hall : members.filter
      (·.label ∈ Label.block Category.methods ++ Label.block Category.fields) = members :=
    List.filter_eq_self.mpr fun m _ => decide_eq_true (hcovered m)
  rw [ofMembers_eq, groups, blockOf, blockOf, ← List.map_append, List.flatMap_map]
  exact (perm_flatMap_filter Member.label members hlabels).trans (.of_eq hall)

end Selection

/-- A class falls into twelve groups of methods and twelve of fields. The group at each place of a
block has the label of that slot and, in the order of the source, the members of that label. No
member is placed outside its block, and all groups together hold every member once. -/
theorem selection_sorts_members (c : ClassDecl) :
    c.selection.methods.length = 12 ∧ c.selection.fields.length = 12 ∧
      (∀ g ∈ c.selection.methods, g.label.category ∈ Category.methods) ∧
      (∀ g ∈ c.selection.fields, g.label.category ∈ Category.fields) ∧
      (∀ groups ∈ [c.selection.methods, c.selection.fields],
        ∀ (i : Nat) (g : Group), groups[i]? = some g →
        g.label.slot = i ∧ g.members = c.members.filter (·.label = g.label)) ∧
      (∀ before m after, c.members = before ++ m :: after →
        m.label.slot < ((Selection.ofMembers before).home m).length) ∧
      (c.selection.groups.flatMap (·.members)).Perm c.members ∧
      c.selection.length = c.members.length := by
  have hperm := Selection.perm_groups c.members
  have hblock {categories : List Category} {n : Nat}
      (hslots : (Label.block categories).map Label.slot = List.range n) (i : Nat) (g : Group)
      (hg : (Selection.blockOf categories c.members)[i]? = some g) :
      g.label.slot = i ∧ g.members = c.members.filter (·.label = g.label) := by
    rw [Selection.getElem?_blockOf] at hg
    obtain ⟨l, hl, rfl⟩ := Option.map_eq_some_iff.mp hg
    exact ⟨Label.slot_of_getElem? hslots hl, rfl⟩
  have hcategory {categories : List Category} (g : Group)
      (hg : g ∈ Selection.blockOf categories c.members) : g.label.category ∈ categories := by
    obtain ⟨l, hl, rfl⟩ := List.mem_map.mp hg
    exact (Label.mem_block l categories).mp hl
  rw [Selection.length_eq]
  refine ⟨?_, ?_, ?_, ?_, ?_, fun before m _ _ => Selection.slot_lt_length_home before m, hperm,
    hperm.length_eq⟩
  all_goals rw [ClassDecl.selection, Selection.ofMembers_eq]
  · exact Selection.length_blockOf Label.slots_methods c.members
  · exact Selection.length_blockOf Label.slots_fields c.members
  · exact hcategory
  · exact hcategory
  · intro groups hgroups
    rcases List.mem_pair.mp hgroups with rfl | rfl
    · exact hblock Label.slots_methods
    · exact hblock Label.slots_fields

end ClassSkeleton.Decl
