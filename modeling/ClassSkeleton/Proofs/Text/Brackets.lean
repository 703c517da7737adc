import ClassSkeleton.Text.Cut
import Mathlib.Data.List.Infix

namespace ClassSkeleton.Text

/-!
# Brackets

A text has a depth for each kind of bracket: the openers in it less the closers. It is balanced
if no front of it has a negative depth and the whole has none. Commas at depth zero divide a
text into entries.
-/

inductive Bracket where
  | angle
  | round
  deriving DecidableEq, Repr

namespace Bracket

def opener : Bracket → Char
  | angle => '<'
  | round => '('

def closer : Bracket → Char
  | angle => '>'
  | round => ')'

end Bracket

/-- The brackets and the comma. Nothing else counts for what a text is divided into. -/
def marks : List Char := ['<', '>', '(', ')', ',']

theorem Bracket.ne_of_notMem_marks {c : Char} (h : c ∉ marks) (b : Bracket) :
    c ≠ b.opener ∧ c ≠ b.closer := by
  constructor
  · rintro rfl
    cases b <;> exact absurd h (by decide)
  · rintro rfl
    cases b <;> exact absurd h (by decide)

theorem notMem_marks_of {p : Char → Bool} (hnone : ∀ c ∈ marks, p c = false) {c : Char}
    (hc : p c = true) : c ∉ marks := by
  intro hmark
  rw [hnone c hmark] at hc
  cases hc

def depth (b : Bracket) (text : List Char) : Int := text.count b.opener - text.count b.closer

section Depth

variable (b : Bracket)

@[simp] theorem depth_nil : depth b [] = 0 := by simp [depth]

@[simp] theorem depth_append (text more : List Char) :
    depth b (text ++ more) = depth b text + depth b more := by
  simp only [depth, List.count_append]
  omega

theorem depth_cons (c : Char) (text : List Char) :
    depth b (c :: text) = depth b [c] + depth b text := depth_append b [c] text

@[simp] theorem depth_reverse (text : List Char) : depth b text.reverse = depth b text := by
  simp [depth]

theorem depth_cases (c : Char) : c = b.opener ∧ depth b [c] = 1 ∨
    c = b.closer ∧ depth b [c] = -1 ∨ c ≠ b.opener ∧ c ≠ b.closer ∧ depth b [c] = 0 := by
  by_cases hopen : c = b.opener
  · subst hopen
    exact Or.inl ⟨rfl, by cases b <;> decide⟩
  · by_cases hclose : c = b.closer
    · subst hclose
      exact Or.inr (Or.inl ⟨rfl, by cases b <;> decide⟩)
    · exact Or.inr (Or.inr ⟨hopen, hclose, by simp [depth, hopen, hclose]⟩)

end Depth

/-- Whether the brackets of one kind are balanced in a text. -/
structure Settles (b : Bracket) (text : List Char) : Prop where
  nonneg : ∀ front back, text = front ++ back → 0 ≤ depth b front
  settled : depth b text = 0

def Balanced (text : List Char) : Prop := ∀ b, Settles b text

instance (b : Bracket) (text : List Char) : Decidable (Settles b text) :=
  decidable_of_iff ((∀ front ∈ text.inits, 0 ≤ depth b front) ∧ depth b text = 0) <| by
    constructor
    · rintro ⟨hnonneg, hsettled⟩
      refine ⟨?_, hsettled⟩
      rintro front back rfl
      exact hnonneg front ((List.mem_inits _ _).mpr (List.prefix_append front back))
    · rintro ⟨hnonneg, hsettled⟩
      refine ⟨?_, hsettled⟩
      intro front hfront
      obtain ⟨back, rfl⟩ := (List.mem_inits _ _).mp hfront
      exact hnonneg front back rfl

instance (text : List Char) : Decidable (Balanced text) :=
  decidable_of_iff (Settles .angle text ∧ Settles .round text)
    ⟨fun h b => by cases b; exacts [h.1, h.2], fun h => ⟨h .angle, h .round⟩⟩

namespace Settles

variable {b : Bracket} {text more : List Char}

theorem nil (b : Bracket) : Settles b [] where
  nonneg := by
    intro front back h
    rw [(List.append_eq_nil_iff.mp h.symm).1]
    exact Int.le_of_eq (depth_nil b).symm
  settled := depth_nil b

theorem append (h : Settles b text) (hmore : Settles b more) : Settles b (text ++ more) where
  nonneg := by
    intro front back hparts
    rcases List.append_eq_append_iff.mp hparts with ⟨rest, rfl, hrest⟩ | ⟨rest, htext, rfl⟩
    · have hfront := hmore.nonneg rest back hrest
      rw [depth_append, h.settled]
      omega
    · exact h.nonneg front rest htext
  settled := by rw [depth_append, h.settled, hmore.settled]; rfl

theorem of_forall_not (h : ∀ c ∈ text, c ≠ b.opener ∧ c ≠ b.closer) : Settles b text := by
  have hzero (front : List Char) (hfront : ∀ c ∈ front, c ≠ b.opener ∧ c ≠ b.closer) :
      depth b front = 0 := by
    have hopen : b.opener ∉ front := fun hmem => (hfront _ hmem).1 rfl
    have hclose : b.closer ∉ front := fun hmem => (hfront _ hmem).2 rfl
    simp [depth, List.count_eq_zero_of_not_mem hopen, List.count_eq_zero_of_not_mem hclose]
  refine ⟨?_, hzero text h⟩
  rintro front back rfl
  exact Int.le_of_eq (hzero front fun c hc => h c (List.mem_append_left back hc)).symm

theorem depth_filter {keep : Char → Bool} (hopen : keep b.opener = true)
    (hclose : keep b.closer = true) (text : List Char) :
    depth b (text.filter keep) = depth b text := by
  rw [depth, depth, List.count_filter hopen, List.count_filter hclose]

/-- Texts that differ in other characters only are balanced together. -/
theorem of_filter {keep : Char → Bool} (hopen : keep b.opener = true)
    (hclose : keep b.closer = true) {other : List Char} (h : Settles b text)
    (heq : text.filter keep = other.filter keep) : Settles b other where
  nonneg := by
    rintro front back rfl
    rw [List.filter_append] at heq
    obtain ⟨first, second, rfl, hfirst, -⟩ := List.filter_eq_append_iff.mp heq
    have hfront := h.nonneg first second rfl
    rwa [← depth_filter hopen hclose, hfirst, depth_filter hopen hclose] at hfront
  settled := by
    rw [← depth_filter hopen hclose, ← heq, depth_filter hopen hclose, h.settled]

/-- A pair of brackets around a text changes nothing. -/
theorem enclose (h : Settles b text) : Settles b (b.opener :: (text ++ [b.closer])) where
  nonneg := by
    intro front back hparts
    have hopen : depth b [b.opener] = 1 := by cases b <;> decide
    have hclose : depth b [b.closer] = -1 := by cases b <;> decide
    rcases front with _ | ⟨c, front⟩
    · exact Int.le_of_eq (depth_nil b).symm
    · obtain ⟨rfl, hrest⟩ := List.cons.inj hparts
      rw [depth_cons, hopen]
      rcases List.append_eq_append_iff.mp hrest with ⟨rest, rfl, hback⟩ | ⟨rest, htext, -⟩
      · rcases rest with _ | ⟨d, rest⟩
        · rw [List.append_nil, h.settled]
          omega
        · obtain ⟨rfl, hnil⟩ := List.cons.inj hback
          obtain ⟨rfl, -⟩ := List.append_eq_nil_iff.mp hnil.symm
          rw [depth_append, h.settled, hclose]
          omega
      · have hfront := h.nonneg front rest htext
        omega
  settled := by
    have hopen : depth b [b.opener] = 1 := by cases b <;> decide
    have hclose : depth b [b.closer] = -1 := by cases b <;> decide
    rw [depth_cons, depth_append, h.settled, hopen, hclose]
    rfl

end Settles

theorem Balanced.of_forall {text : List Char}
    (h : ∀ b : Bracket, ∀ c ∈ text, c ≠ b.opener ∧ c ≠ b.closer) : Balanced text :=
  fun b => .of_forall_not (h b)

theorem Balanced.of_notMem_marks {text : List Char} (h : ∀ c ∈ text, c ∉ marks) :
    Balanced text := .of_forall fun b c hc => b.ne_of_notMem_marks (h c hc)

theorem Balanced.append {text more : List Char} (h : Balanced text) (hmore : Balanced more) :
    Balanced (text ++ more) := fun b => (h b).append (hmore b)

theorem Balanced.enclose {text : List Char} (h : Balanced text) :
    Balanced ('<' :: (text ++ ['>'])) := by
  intro b
  cases b with
  | angle => exact (h .angle).enclose
  | round =>
      have hopen : Settles .round ['<'] := .of_forall_not (by decide)
      have hclose : Settles .round ['>'] := .of_forall_not (by decide)
      exact hopen.append ((h .round).append hclose)

theorem angle_cases (c : Char) : c = '<' ∧ depth .angle [c] = 1 ∨
    c = '>' ∧ depth .angle [c] = -1 ∨ c ≠ '<' ∧ c ≠ '>' ∧ depth .angle [c] = 0 :=
  depth_cases .angle c

theorem nonneg_of_not_close {inner : Nat} {c : Char} (h : ¬ (c = '>' ∧ inner = 0)) :
    0 ≤ inner + depth .angle [c] := by
  rcases angle_cases c with ⟨-, hc⟩ | ⟨rfl, hc⟩ | ⟨-, -, hc⟩
  · omega
  · have hinner : inner ≠ 0 := fun hzero => h ⟨rfl, hzero⟩
    omega
  · omega

theorem cutAtClose?_cons {inner : Nat} {c : Char} (h : ¬ (c = '>' ∧ inner = 0))
    (rest : List Char) : cutAtClose? inner (c :: rest) =
      (cutAtClose? (inner + depth .angle [c]).toNat rest).map fun cut => (c :: cut.1, cut.2) := by
  have hdepth : (if c = '<' then inner + 1 else if c = '>' then inner - 1 else inner) =
      (inner + depth .angle [c]).toNat := by
    rcases angle_cases c with ⟨rfl, hc⟩ | ⟨rfl, hc⟩ | ⟨hopen, hclose, hc⟩
    · rw [hc, if_pos rfl]
      rfl
    · rw [hc, if_neg (by decide), if_pos rfl]
      omega
    · rw [hc, if_neg hopen, if_neg hclose]
      omega
  rw [cutAtClose?, if_neg h, ← hdepth]

/-- The cut falls where the depth goes below zero for the first time. -/
theorem cutAtClose?_append {inner : Nat} {inside : List Char}
    (hnonneg : ∀ front back, inside = front ++ back → 0 ≤ inner + depth .angle front)
    (hsettled : inner + depth .angle inside = 0) (behind : List Char) :
    cutAtClose? inner (inside ++ '>' :: behind) = some (inside, behind) := by
  induction inside generalizing inner with
  | nil =>
      have hzero : inner = 0 := by simpa using hsettled
      simp [cutAtClose?, hzero]
  | cons c inside ih =>
      have hc : 0 ≤ inner + depth .angle [c] := hnonneg [c] inside rfl
      have hnot : ¬ (c = '>' ∧ inner = 0) := by
        rintro ⟨rfl, rfl⟩
        exact absurd hc (by decide)
      have hnext : cutAtClose? (inner + depth .angle [c]).toNat (inside ++ '>' :: behind) =
          some (inside, behind) := by
        apply ih
        · rintro front back rfl
          have hfront := hnonneg (c :: front) back rfl
          rw [depth_cons] at hfront
          omega
        · rw [depth_cons] at hsettled
          omega
      rw [List.cons_append, cutAtClose?_cons hnot, hnext]
      rfl

theorem nonneg_of_cutAtClose? {inner : Nat} {text inside behind : List Char}
    (h : cutAtClose? inner text = some (inside, behind)) :
    (∀ front back, inside = front ++ back → 0 ≤ inner + depth .angle front) ∧
      inner + depth .angle inside = 0 := by
  induction text generalizing inner inside with
  | nil => cases h
  | cons c rest ih =>
      by_cases hclose : c = '>' ∧ inner = 0
      · obtain ⟨rfl, rfl⟩ := hclose
        obtain ⟨rfl, rfl⟩ := Prod.mk.inj (Option.some.inj h)
        refine ⟨?_, rfl⟩
        intro front back hparts
        simpa using (Settles.nil .angle).nonneg front back hparts
      · have hc := nonneg_of_not_close hclose
        rw [cutAtClose?_cons hclose] at h
        obtain ⟨⟨tail, _⟩, htail, heq⟩ := Option.map_eq_some_iff.mp h
        obtain ⟨rfl, rfl⟩ : c :: tail = inside ∧ _ = behind := Prod.mk.inj heq
        obtain ⟨hnonneg, hsettled⟩ := ih htail
        constructor
        · rintro (_ | ⟨d, front⟩) back hparts
          · simp
          · obtain ⟨rfl, rfl⟩ := List.cons.inj hparts
            have hfront := hnonneg front back rfl
            rw [depth_cons]
            omega
        · rw [depth_cons]
          omega

theorem cutAtClose?_of_settles {inside : List Char} (h : Settles .angle inside)
    (behind : List Char) : cutAtClose? 0 (inside ++ '>' :: behind) = some (inside, behind) :=
  cutAtClose?_append (by simpa using h.nonneg) (by simpa using h.settled) behind

theorem settles_of_cutAtClose? {text inside behind : List Char}
    (h : cutAtClose? 0 text = some (inside, behind)) : Settles .angle inside := by
  obtain ⟨hnonneg, hsettled⟩ := nonneg_of_cutAtClose? h
  exact ⟨by simpa using hnonneg, by simpa using hsettled⟩

/-- A text in which no bracket is closed that is open before it has no negative depth. -/
theorem nonneg_of_cutAtClose?_eq_none {inner : Nat} {text : List Char}
    (h : cutAtClose? inner text = none) : 0 ≤ inner + depth .angle text := by
  induction text generalizing inner with
  | nil => simp
  | cons c rest ih =>
      by_cases hclose : c = '>' ∧ inner = 0
      · rw [cutAtClose?, if_pos hclose] at h
        cases h
      · have hc := nonneg_of_not_close hclose
        rw [cutAtClose?_cons hclose, Option.map_eq_none_iff] at h
        have hrest := ih h
        rw [depth_cons]
        omega

end ClassSkeleton.Text
