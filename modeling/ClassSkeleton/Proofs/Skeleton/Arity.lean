import ClassSkeleton.Proofs.Rules.Exposing
import ClassSkeleton.Proofs.Rules.Settling

namespace ClassSkeleton.Skeleton

/-!
# The number of parameters

A parameter list is written with one entry for each parameter, and one more for every comma that
the wrappers taken off its types bring to light.
-/

open Rules Rules.Standard Text

/-- Whether a parameter is one entry as it is declared: brackets balanced, no comma outside them,
and an identifier for a name. -/
structure IsEntry (p : Decl.Param) : Prop where
  balanced : Balanced p.type.raw.toList
  undivided : outerCommas [] p.type.raw.toList = 0
  named : ∀ c ∈ p.name.toList, Unicode.isWord c = true

instance (p : Decl.Param) : Decidable (IsEntry p) :=
  decidable_of_iff (Balanced p.type.raw.toList ∧ outerCommas [] p.type.raw.toList = 0 ∧
      ∀ c ∈ p.name.toList, Unicode.isWord c = true)
    ⟨fun h => ⟨h.1, h.2.1, h.2.2⟩, fun h => ⟨h.balanced, h.undivided, h.named⟩⟩

namespace Rewriting

section

variable {w : Rewriting} (hrules : w.rules = standard)
include hrules

theorem outline_token (t : Decl.Token) :
    outline (w.token t).toList = outline t.spelling.toList := by
  rw [token, hrules, outline_apply_types, outline_apply_typeReferences]

/-- Joining the tokens of a type changes nothing but what stands between brackets and commas. -/
theorem outline_joinedTokens (type : Decl.TypeRef) :
    outline (w.joinedTokens type).toList = outline type.raw.toList := by
  have hspace : outline " ".toList = [] := by decide
  rw [joinedTokens, String.toList_intercalate, outline_intercalate hspace, Decl.TypeRef.raw,
    String.toList_join]
  induction type with
  | nil => rfl
  | cons t type ih =>
      rw [List.map_cons, List.map_cons, List.flatMap_cons, outline_append, ← ih,
        ← outline_token hrules]
      by_cases hempty : w.token t = ""
      · simp [hempty]
      · simp [hempty]

omit hrules in
theorem outline_param {p : Decl.Param} (h : IsEntry p) :
    outline (w.param p).toList = outline (w.typeName p.type).toList := by
  have hname : outline p.name.toList = [] := outline_of_notMem fun c hc =>
    notMem_marks_of (by decide) (h.named c hc)
  have hspace : outline " ".toList = [] := by decide
  simp only [param]
  split
  · next hempty =>
    have htype : w.typeName p.type = "" := by simpa using hempty
    rw [hname, htype]
    rfl
  · rw [String.toList_append, String.toList_append, outline_append, outline_append, hname, hspace,
      List.append_nil, List.append_nil]

/-- A parameter is balanced when it is written, and divided only by commas that came to light. -/
theorem outerCommas_param {p : Decl.Param} (h : IsEntry p) : Balanced (w.param p).toList ∧
    outerCommas [] (w.param p).toList = exposedBy wrappers (w.joinedTokens p.type).toList := by
  have hjoined := outline_joinedTokens hrules p.type
  obtain ⟨hbalanced, hcount⟩ :=
    outerCommas_apply_typeRemovals (h.balanced.of_outline hjoined.symm)
  have hparam : outline (w.typeName p.type).toList = outline (w.param p).toList :=
    (outline_param h).symm
  rw [typeName, hrules] at hparam
  refine ⟨hbalanced.of_outline hparam, ?_⟩
  rw [← outerCommas_of_outline hparam, hcount, outerCommas_of_outline hjoined, h.undivided,
    Nat.zero_add]

/-- The built-in rules keep the number of parameters exactly if no wrapper that they take off
brings a comma to light. -/
theorem entries_params {ps : List Decl.Param} (hps : ps ≠ []) (h : ∀ p ∈ ps, IsEntry p) :
    let exposed (p : Decl.Param) := exposedBy wrappers (w.joinedTokens p.type).toList
    entries (w.params ps).toList = ps.length + (ps.map exposed).sum ∧
      (entries (w.params ps).toList = ps.length ↔ ∀ p ∈ ps, exposed p = 0) := by
  intro exposed
  have hcount : entries (w.params ps).toList = ps.length + (ps.map exposed).sum := by
    have hbalanced : ∀ part ∈ (ps.map w.param).map String.toList, Balanced part := by
      intro part hpart
      obtain ⟨text, htext, rfl⟩ := List.mem_map.mp hpart
      obtain ⟨p, hp, rfl⟩ := List.mem_map.mp htext
      exact (outerCommas_param hrules (h p hp)).1
    have hcommas : ((ps.map w.param).map String.toList).map (outerCommas []) = ps.map exposed := by
      rw [List.map_map, List.map_map]
      exact List.map_congr_left fun p hp => (outerCommas_param hrules (h p hp)).2
    have hsep : ", ".toList = [',', ' '] := rfl
    rw [params, String.toList_intercalate, hsep, entries_intercalate hbalanced (by simpa using hps),
      hcommas, List.length_map, List.length_map]
  refine ⟨hcount, ?_⟩
  rw [hcount, Nat.add_eq_left, List.sum_eq_zero_iff_forall_eq_nat]
  simp

end

/-- A value that is owned together with a way to delete it. -/
def owned : Decl.Param := ⟨"p", [.text "std::unique_ptr<A, D>"]⟩

theorem joinedTokens_owned :
    (⟨standard, ""⟩ : Rewriting).joinedTokens owned.type = "std::unique_ptr<A, D>" := by
  have htoken : (⟨standard, ""⟩ : Rewriting).token (.text "std::unique_ptr<A, D>") =
      "std::unique_ptr<A, D>" := by
    simp only [token, apply_types, ← chars_eq_toList]
    decide +kernel
  have htype : owned.type = [.text "std::unique_ptr<A, D>"] := rfl
  rw [joinedTokens, htype, List.map_cons, htoken]
  rfl

theorem entries_params_owned :
    [owned] ≠ [] ∧ (∀ p ∈ [owned], IsEntry p) ∧
      entries ((⟨standard, ""⟩ : Rewriting).params [owned]).toList = [owned].length + 1 := by
  have hne : [owned] ≠ [] := List.cons_ne_nil owned []
  have hentry : ∀ p ∈ [owned], IsEntry p := by decide +kernel
  have hexposed : exposedBy wrappers "std::unique_ptr<A, D>".toList = 1 := by decide +kernel
  refine ⟨hne, hentry, ?_⟩
  rw [(entries_params (w := ⟨standard, ""⟩) rfl hne hentry).1, List.map_cons, joinedTokens_owned,
    hexposed]
  rfl

/-- The two arguments of one wrapper are written as two entries. -/
theorem params_divides_owned :
    let w : Rewriting := ⟨standard, ""⟩
    IsEntry owned ∧ w.params [owned] = "A, D p" ∧
      entries (w.params [owned]).toList ≠ [owned].length := by
  intro w
  have htype : w.typeName owned.type = "A, D" := by
    rw [typeName, joinedTokens_owned]
    decide +kernel
  have hparams : w.params [owned] = "A, D p" := by
    rw [params, List.map_cons, param, htype]
    decide
  refine ⟨by decide +kernel, hparams, ?_⟩
  rw [hparams]
  decide

end Rewriting

end ClassSkeleton.Skeleton
