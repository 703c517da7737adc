import ClassSkeleton.Decl.Groups
import Mathlib.Data.List.Perm.Basic

namespace ClassSkeleton.Decl

/-!
# Members and their groups

What puts a member into a group is read off the member itself. A block has a place for every
member of its kind and for no other, and no label twice, so members sorted by label are the
same members.
-/

namespace Member

def isField (m : Member) : Bool :=
  match m.kind with
  | .field _ => true
  | .method .. => false

def isMethod (m : Member) : Bool := !m.isField

def isMutable (m : Member) : Bool :=
  match m.kind with
  | .field isMutable => isMutable
  | .method .. => false

def isPureVirtual (m : Member) : Bool :=
  match m.kind with
  | .field _ => false
  | .method pureVirtual .. => pureVirtual

end Member

namespace Category

def holds : Category → Member → Bool
  | .method .concrete, m => m.isMethod && !m.isPureVirtual && !m.isStatic
  | .method .abstract, m => m.isPureVirtual && !m.isStatic
  | .method .static, m => m.isMethod && m.isStatic
  | .field .concrete, m => m.isField && !m.isMutable && !m.isStatic
  | .field .mutable, m => m.isMutable && !m.isStatic
  | .field .static, m => m.isField && m.isStatic

theorem holds_iff (k : Category) (m : Member) : k.holds m = true ↔ m.category = k := by
  cases hk : m.kind with
  | method pureVirtual =>
    rcases k with (_ | _ | _) | (_ | _ | _) <;> cases hs : m.isStatic <;> cases pureVirtual <;>
      simp [holds, Member.category, Member.isField, Member.isMethod, Member.isMutable,
        Member.isPureVirtual, hk, hs]
  | field isMutable =>
    rcases k with (_ | _ | _) | (_ | _ | _) <;> cases hs : m.isStatic <;> cases isMutable <;>
      simp [holds, Member.category, Member.isField, Member.isMethod, Member.isMutable,
        Member.isPureVirtual, hk, hs]

end Category

namespace Label

theorem mem_block (l : Label) (categories : List Category) :
    l ∈ block categories ↔ l.category ∈ categories := by
  obtain ⟨visibility, category⟩ := l
  cases visibility <;> simp [block, Visibility.all]

def covers (l : Label) (m : Member) : Bool :=
  m.visibility = l.visibility && l.category.holds m

theorem covers_iff (l : Label) (m : Member) : l.covers m = true ↔ m.label = l := by
  obtain ⟨visibility, category⟩ := l
  simp [covers, Category.holds_iff, Member.label]

theorem filter_covers (l : Label) (members : List Member) :
    members.filter l.covers = members.filter (·.label = l) :=
  List.filter_congr fun m _ => Bool.eq_iff_iff.mpr <| by rw [covers_iff, decide_eq_true_iff]

theorem nodup_block_fields : (block Category.fields).Nodup := by decide

theorem nodup_block_methods : (block Category.methods).Nodup := by decide

end Label

namespace Member

theorem category_mem (m : Member) :
    (m.category ∈ Category.fields ↔ m.isField = true) ∧
      (m.category ∈ Category.methods ↔ m.isMethod = true) := by
  cases hk : m.kind with
  | method pureVirtual =>
    cases hs : m.isStatic <;> cases pureVirtual <;>
      simp [category, isMethod, isField, Category.fields, Category.methods, hk, hs]
  | field isMutable =>
    cases hs : m.isStatic <;> cases isMutable <;>
      simp [category, isMethod, isField, Category.fields, Category.methods, hk, hs]

theorem category_mem_fields (m : Member) : m.category ∈ Category.fields ↔ m.isField = true :=
  m.category_mem.1

theorem category_mem_methods (m : Member) :
    m.category ∈ Category.methods ↔ m.isMethod = true := m.category_mem.2

end Member

/-- Members picked key by key are the members that have one of the keys. -/
theorem perm_flatMap_filter {κ : Type*} [DecidableEq κ] (key : Member → κ)
    (members : List Member) {keys : List κ} (nodup : keys.Nodup) :
    (keys.flatMap fun k => members.filter (key · = k)).Perm
      (members.filter (key · ∈ keys)) := by
  induction keys with
  | nil => simp
  | cons k keys ih =>
    obtain ⟨absent, nodup⟩ := List.nodup_cons.mp nodup
    -- The members with one of the keys are those with `k` and those with another key.
    have first : (members.filter (key · ∈ k :: keys)).filter (key · = k) =
        members.filter (key · = k) := by
      rw [List.filter_filter]
      refine List.filter_congr fun m _ => ?_
      by_cases hm : key m = k <;> simp [hm]
    have others : (members.filter (key · ∈ k :: keys)).filter (fun m => !decide (key m = k)) =
        members.filter (key · ∈ keys) := by
      rw [List.filter_filter]
      refine List.filter_congr fun m _ => ?_
      by_cases hm : key m = k <;> simp [hm, absent]
    have split := List.filter_append_perm (fun m => decide (key m = k))
      (members.filter (key · ∈ k :: keys))
    rw [first, others] at split
    exact ((ih nodup).append_left _).trans split

end ClassSkeleton.Decl
