import ClassSkeleton.Proofs.Rules.Cutting
import ClassSkeleton.Proofs.Rules.Removal
import ClassSkeleton.Proofs.Skeleton.Arity

namespace ClassSkeleton.Skeleton

/-!
# Types that are cut in other places

The tokens of a type are rewritten one by one. Where they are cut makes no difference, but for
blanks, if every cut is clear of what the rules read.
-/

open Rules Rules.Standard Text

/-- Whether it makes no difference that a token is cut off what is behind it. Where there is nothing
but blanks on one side, no rule goes over the cut. -/
def IsFreeCut (token rest : List Char) : Prop :=
  (∀ c ∈ token, Unicode.isBlank c = true) ∨
    Unmarked token ∧ ((∀ c ∈ rest, Unicode.isBlank c = true) ∨ Clear token rest)

/-- Whether every cut of a type makes no difference. -/
def IsFreelyCut : Decl.TypeRef → Prop
  | [] => True
  | [_] => True
  | token :: other :: rest =>
    IsFreeCut token.spelling.toList (Decl.TypeRef.raw (other :: rest)).toList ∧
      IsFreelyCut (other :: rest)

instance (token rest : List Char) : Decidable (IsFreeCut token rest) :=
  decidable_of_iff (token.all Unicode.isBlank ∨
      Unmarked token ∧ (rest.all Unicode.isBlank ∨ Clear token rest))
    (by simp only [List.all_eq_true, IsFreeCut])

instance isFreelyCut.decidable : (type : Decl.TypeRef) → Decidable (IsFreelyCut type)
  | [] => .isTrue trivial
  | [_] => .isTrue trivial
  | token :: other :: rest =>
    have := isFreelyCut.decidable (other :: rest)
    inferInstanceAs (Decidable (IsFreeCut token.spelling.toList
      (Decl.TypeRef.raw (other :: rest)).toList ∧ IsFreelyCut (other :: rest)))

/-- Whether no cut of a type falls inside a qualified name. -/
def KeepsNames : Decl.TypeRef → Prop
  | [] => True
  | token :: rest =>
    (∀ c ∈ token.spelling.toList.getLast?, isNameChar c = true →
      ∀ d ∈ (Decl.TypeRef.raw rest).toList.head?, isNameChar d = false) ∧ KeepsNames rest

-- As for a cut, the characters at an edge are tried, not those of the whole type.
instance keepsNames.decidable : (type : Decl.TypeRef) → Decidable (KeepsNames type)
  | [] => .isTrue trivial
  | token :: rest =>
    have := keepsNames.decidable rest
    decidable_of_iff ((token.spelling.toList.getLast?.all fun c => !isNameChar c ||
        (Decl.TypeRef.raw rest).toList.head?.all fun d => !isNameChar d) ∧ KeepsNames rest)
      (by simp [KeepsNames, Option.all_eq_true, ← imp_iff_not_or, ← Bool.not_eq_true])

namespace Rewriting

/-- What a text says when blanks do not count. -/
def signs (text : String) : List Char := text.toList.filter fun c => !Unicode.isBlank c

section Joining

variable (w : Rewriting)

/-- The tokens of a type that are left. -/
def leftTokens (type : Decl.TypeRef) : List String :=
  (type.map w.token).filter fun text => !text.isEmpty

theorem joinedTokens_eq (type : Decl.TypeRef) :
    w.joinedTokens type = " ".intercalate (leftTokens w type) := rfl

theorem leftTokens_cons_of_empty {t : Decl.Token} (h : w.token t = "") (type : Decl.TypeRef) :
    leftTokens w (t :: type) = leftTokens w type := by simp [leftTokens, h]

theorem leftTokens_cons {t : Decl.Token} (h : w.token t ≠ "") (type : Decl.TypeRef) :
    leftTokens w (t :: type) = w.token t :: leftTokens w type := by simp [leftTokens, h]

end Joining

/-- Whether the tokens that are left of a type have the signs of its whole text, and blanks where
these make no difference. -/
def JoinsAligned (w : Rewriting) (type : Decl.TypeRef) : Prop :=
  (spelled type.raw.toList = [] ∧ leftTokens w type = []) ∨
    (spelled type.raw.toList ≠ [] ∧ leftTokens w type ≠ [] ∧
      Aligned none (spelled type.raw.toList) (w.joinedTokens type).toList)

theorem toList_raw_cons (t : Decl.Token) (rest : Decl.TypeRef) :
    (Decl.TypeRef.raw (t :: rest)).toList =
      t.spelling.toList ++ (Decl.TypeRef.raw rest).toList := by
  rw [Decl.TypeRef.raw, Decl.TypeRef.raw, List.map_cons, String.join_cons, String.toList_append]

section Standard

variable {w : Rewriting} (hrules : w.rules = standard)
include hrules

theorem toList_token (t : Decl.Token) : (w.token t).toList = spelled t.spelling.toList := by
  rw [token, hrules, apply_types_references, String.toList_ofList]

theorem token_eq_empty_iff (t : Decl.Token) :
    w.token t = "" ↔ spelled t.spelling.toList = [] := by
  rw [← toList_token hrules, String.toList_eq_nil_iff]

theorem toList_joinedTokens (type : Decl.TypeRef) : (w.joinedTokens type).toList =
    [' '].intercalate ((type.map fun t => spelled t.spelling.toList).filter (!·.isEmpty)) := by
  have hspace : " ".toList = [' '] := rfl
  have htokens : type.map (fun t => spelled t.spelling.toList) =
      (type.map w.token).map String.toList := by
    rw [List.map_map]
    exact List.map_congr_left fun t _ => (toList_token hrules t).symm
  have hempty : ((!·.isEmpty) ∘ String.toList) = fun text : String => !text.isEmpty := by
    funext text
    rw [Function.comp_apply, Bool.eq_iff_iff]
    simp
  rw [joinedTokens, String.toList_intercalate, hspace, htokens,
    List.filter_map (f := String.toList), hempty]

theorem toList_typeName (type : Decl.TypeRef) :
    (w.typeName type).toList = dotted (unwrapped (w.joinedTokens type).toList) := by
  rw [typeName, hrules, apply_typeRemovals, String.toList_ofList, ← unwrapped, ← dotted]

variable {t : Decl.Token} {rest : Decl.TypeRef}

/-- A token behind which nothing is left is joined as it is spelled. -/
theorem JoinsAligned.of_last
    (hsame : spelled (Decl.TypeRef.raw (t :: rest)).toList = spelled t.spelling.toList)
    (hrest : leftTokens w rest = []) : JoinsAligned w (t :: rest) := by
  rw [JoinsAligned, hsame, ne_eq, ← token_eq_empty_iff hrules]
  by_cases hempty : w.token t = ""
  · refine Or.inl ⟨hempty, ?_⟩
    rw [leftTokens_cons_of_empty w hempty, hrest]
  · refine Or.inr ⟨hempty, ?_, ?_⟩
    · rw [leftTokens_cons w hempty]
      exact List.cons_ne_nil _ _
    · rw [joinedTokens_eq, leftTokens_cons w hempty, hrest, String.intercalate_singleton,
        toList_token hrules]
      exact .refl none _

/-- A token of which nothing is left is passed over. -/
theorem JoinsAligned.of_passed (hmarks : Unmarked t.spelling.toList)
    (hapart : Apart t.spelling.toList rest.raw.toList) (hnil : bare t.spelling.toList = [])
    (h : JoinsAligned w rest) : JoinsAligned w (t :: rest) := by
  have hempty := (token_eq_empty_iff hrules t).mpr (spelled_eq_nil hnil)
  have hsame := (spelled_append_of_eq_nil hmarks hapart (Or.inl hnil)).1 hnil
  rw [JoinsAligned, toList_raw_cons, hsame, joinedTokens_eq, leftTokens_cons_of_empty w hempty,
    ← joinedTokens_eq]
  exact h

/-- Where something is left on both sides, the blanks at the cut are aligned with the space that
joins them. -/
theorem JoinsAligned.cons (hmarks : Unmarked t.spelling.toList)
    (hclear : Clear t.spelling.toList rest.raw.toList) (ht : bare t.spelling.toList ≠ [])
    (hne : bare rest.raw.toList ≠ []) (h : JoinsAligned w rest) : JoinsAligned w (t :: rest) := by
  obtain ⟨gap, hwhole, hjoined⟩ := exists_spelled_append hmarks hclear ht hne
  obtain ⟨-, hleft, haligned⟩ := h.resolve_left fun hnil => hjoined.back.nonempty hnil.1
  have hempty : w.token t ≠ "" := fun hempty =>
    hjoined.front.nonempty ((token_eq_empty_iff hrules t).mp hempty)
  refine Or.inr ⟨?_, ?_, ?_⟩
  · rw [toList_raw_cons, hwhole]
    exact List.append_ne_nil_of_left_ne_nil hjoined.front.nonempty _
  · rw [leftTokens_cons w hempty]
    exact List.cons_ne_nil _ _
  · rw [toList_raw_cons, hwhole, joinedTokens_eq, leftTokens_cons w hempty,
      String.intercalate_cons_of_ne_nil hleft, ← joinedTokens_eq, String.toList_append,
      String.toList_append, toList_token hrules, List.append_assoc]
    refine .append_left hjoined.front.back ?_
    obtain ⟨d, more, hd⟩ := List.exists_cons_of_ne_nil hjoined.back.nonempty
    have hstart : Aligned none ([] ++ d :: more) (w.joinedTokens rest).toList := by
      rw [List.nil_append, ← hd]
      exact haligned
    have hblank := hjoined.back.front d (by rw [hd]; rfl)
    obtain ⟨other, behind, heq, hother, -, htail⟩ := hstart.exists_of_cons (by simp) hblank
    have hspace : ∀ c ∈ " ".toList ++ other, Unicode.isBlank c = true :=
      List.forall_mem_append.mpr ⟨by decide, hother⟩
    rw [hd, heq, ← List.append_assoc]
    refine .sign hjoined.blank hspace hblank ?_ htail
    by_cases hgap : gap = []
    · refine Or.inr fun hname p hp => ?_
      rw [Option.or_none] at hp
      by_contra hopen
      have hnot := hjoined.apart hgap p hp (by simpa using hopen) d (by rw [hd]; rfl)
      rw [hname] at hnot
      cases hnot
    · exact Or.inl (by simp [hgap])

/-- A type whose cuts make no difference is joined as it is spelled. -/
theorem joinsAligned_of_isFreelyCut {type : Decl.TypeRef} (h : IsFreelyCut type) :
    JoinsAligned w type := by
  induction type with
  | nil => exact Or.inl ⟨spelled_eq_nil (bare_of_blank nofun), rfl⟩
  | cons t rest ih =>
      rcases rest with _ | ⟨other, rest⟩
      · refine .of_last hrules ?_ rfl
        simp [Decl.TypeRef.raw]
      · obtain ⟨hcut, hrest⟩ := h
        have hbehind := ih hrest
        have hapart_left (hblank : ∀ c ∈ t.spelling.toList, Unicode.isBlank c = true) :
            Apart t.spelling.toList (Decl.TypeRef.raw (other :: rest)).toList := by
          intro c hc hopen
          rw [not_isOpen_of_isBlank (hblank c (List.mem_of_getLast? hc))] at hopen
          cases hopen
        have hapart_right
            (hblank : ∀ c ∈ (Decl.TypeRef.raw (other :: rest)).toList, Unicode.isBlank c = true) :
            Apart t.spelling.toList (Decl.TypeRef.raw (other :: rest)).toList := by
          intro _ _ _ d hd
          exact not_isNameChar_of_isBlank (hblank d (List.mem_of_head? hd))
        rcases hcut with hblank | ⟨hmarks, hcut⟩
        · exact .of_passed hrules (unmarked_of_blank hblank) (hapart_left hblank)
            (bare_of_blank hblank) hbehind
        · have hapart := hcut.elim hapart_right Clear.names
          by_cases ht : bare t.spelling.toList = []
          · exact .of_passed hrules hmarks hapart ht hbehind
          · by_cases hnil : bare (Decl.TypeRef.raw (other :: rest)).toList = []
            · have hsame := (spelled_append_of_eq_nil hmarks hapart (Or.inr hnil)).2 hnil
              rw [← toList_raw_cons] at hsame
              refine .of_last hrules hsame ?_
              rcases hbehind with ⟨-, hnone⟩ | ⟨hsome, -⟩
              · exact hnone
              · exact absurd (spelled_eq_nil hnil) hsome
            · have hclear := hcut.resolve_left fun hblank => hnil (bare_of_blank hblank)
              exact .cons hrules hmarks hclear ht hnil hbehind

/-- The signs of a type are those of its whole text, as the rules spell it, when wrappers and
separators are gone. -/
theorem signs_typeName {type : Decl.TypeRef} (hcuts : IsFreelyCut type)
    (hsettles : Settles .angle type.raw.toList) :
    signs (w.typeName type) = (dotted (unwrapped (spelled type.raw.toList))).filter
      fun c => !Unicode.isBlank c := by
  have haligned : Aligned none (spelled type.raw.toList) (w.joinedTokens type).toList := by
    rcases joinsAligned_of_isFreelyCut hrules hcuts with ⟨hnil, hnone⟩ | ⟨-, -, h⟩
    · rw [hnil, joinedTokens_eq, hnone]
      exact .refl none []
    · exact h
  have hspelled : Settles .angle (spelled type.raw.toList) := by
    refine hsettles.of_outline ?_
    rw [← outline_apply_typeReferences, ← outline_apply_types, apply_types_references,
      String.toList_ofList]
  rw [signs, toList_typeName hrules]
  exact (filter_dotted (aligned_unwrapped haligned hspelled)).symm

end Standard

/-- Types of one spelling that are not cut alike: between two words of one type, in front of a
`const`, behind an `@`, behind the mark of a reference, and where a bracket does not match. -/
def recuts : List (Decl.TypeRef × Decl.TypeRef) := [
  ([.text "unsigned ", .ref "int"], [.text "unsigned int"]),
  ([.ref "Foo", .text " const &"], [.text "Foo const &"]),
  ([.text "@", .ref "Real"], [.text "@Real"]),
  ([.text "Foo &", .ref "Bar"], [.text "Foo &Bar"]),
  ([.text "std::boost::shared_ptr<", .ref "shared_ptr<A>"],
    [.text "std::boost::shared_ptr<shared_ptr<A>"])]

end Rewriting

end ClassSkeleton.Skeleton
