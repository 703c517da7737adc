import ClassSkeleton.Proofs.Text.Runs
import ClassSkeleton.Proofs.Text.Trimming

namespace ClassSkeleton.Text

/-!
# Blanks within a text

A text is neat if it has no blank at its ends, no two blanks side by side, and no blank but those
that are allowed. A blank is lone if there is none on either side of it.
-/

structure Neat (ok : Char → Prop) (text : List Char) : Prop where
  front : ∀ c ∈ text.head?, Unicode.isBlank c = false
  back : ∀ c ∈ text.getLast?, Unicode.isBlank c = false
  single : text.IsChain fun c d => Unicode.isBlank c = false ∨ Unicode.isBlank d = false
  blanks : ∀ c ∈ text, Unicode.isBlank c = true → ok c

instance (text : List Char) : Decidable (Neat (· = ' ') text) :=
  decidable_of_iff ((text.head?.all fun c => !Unicode.isBlank c) ∧
      (text.getLast?.all fun c => !Unicode.isBlank c) ∧
      (text.IsChain fun c d => Unicode.isBlank c = false ∨ Unicode.isBlank d = false) ∧
      text.all fun c => !Unicode.isBlank c || c == ' ')
    ⟨fun h => ⟨by simpa [Option.all_eq_true] using h.1, by simpa [Option.all_eq_true] using h.2.1,
      h.2.2.1, by simpa [← imp_iff_not_or, ← Bool.not_eq_true] using h.2.2.2⟩,
      fun h => ⟨by simpa [Option.all_eq_true] using h.front,
        by simpa [Option.all_eq_true] using h.back, h.single,
        by simpa [← imp_iff_not_or, ← Bool.not_eq_true] using h.blanks⟩⟩

namespace Neat

variable {ok : Char → Prop} {text front taken back other : List Char}

theorem nil : Neat ok [] := ⟨nofun, nofun, .nil, nofun⟩

theorem singleton {c : Char} (hc : Unicode.isBlank c = false) : Neat ok [c] := by
  have hall : ∀ d ∈ [c], Unicode.isBlank d = false := List.forall_mem_singleton.mpr hc
  refine ⟨fun d hd => hall d (List.mem_of_head? hd), fun d hd => hall d (List.mem_of_getLast? hd),
    .singleton c, fun d hd hblank => ?_⟩
  rw [hall d hd] at hblank
  cases hblank

theorem of_space (hok : ok ' ') (h : Neat (· = ' ') text) : Neat ok text :=
  ⟨h.front, h.back, h.single, fun c hc hblank => h.blanks c hc hblank ▸ hok⟩

theorem of_part (h : Neat ok text) (hpart : other <:+: text)
    (hfront : ∀ c ∈ other.head?, Unicode.isBlank c = false)
    (hback : ∀ c ∈ other.getLast?, Unicode.isBlank c = false) : Neat ok other :=
  ⟨hfront, hback, List.IsChain.infix h.single hpart, fun c hc => h.blanks c (hpart.subset hc)⟩

/-- A part of a neat text may be exchanged for a neat text. -/
theorem splice (h : Neat ok (front ++ (taken ++ back))) (hother : Neat ok other)
    (hne : other ≠ []) : Neat ok (front ++ (other ++ back)) where
  front := by
    intro c hc
    rcases front with _ | ⟨d, front⟩
    · rw [List.nil_append, List.head?_append_of_ne_nil _ hne] at hc
      exact hother.front c hc
    · exact h.front c hc
  back := by
    intro c hc
    rw [← List.append_assoc] at hc
    rcases eq_or_ne back [] with rfl | hback
    · rw [List.append_nil, List.getLast?_append_of_ne_nil _ hne] at hc
      exact hother.back c hc
    · rw [List.getLast?_append_of_ne_nil _ hback] at hc
      refine h.back c ?_
      rwa [← List.append_assoc, List.getLast?_append_of_ne_nil _ hback]
  single := by
    obtain ⟨hfront, hrest, -⟩ := List.isChain_append.mp h.single
    obtain ⟨-, hback, -⟩ := List.isChain_append.mp hrest
    refine hfront.append (hother.single.append hback fun c hc _ _ => Or.inl (hother.back c hc)) ?_
    intro c _ d hd
    rw [List.head?_append_of_ne_nil _ hne] at hd
    exact Or.inr (hother.front d hd)
  blanks := by
    obtain ⟨hfront, hrest⟩ := List.forall_mem_append.mp h.blanks
    have hback := (List.forall_mem_append.mp hrest).2
    exact List.forall_mem_append.mpr ⟨hfront, List.forall_mem_append.mpr ⟨hother.blanks, hback⟩⟩

theorem append_space (h : Neat ok text) (hother : Neat ok other) (hne : text ≠ [])
    (hne' : other ≠ []) (hok : ok ' ') : Neat ok (text ++ ' ' :: other) where
  front := by
    rw [List.head?_append_of_ne_nil _ hne]
    exact h.front
  back := by
    rw [List.getLast?_append_of_ne_nil _ (List.cons_ne_nil _ _), List.getLast?_cons_of_ne_nil hne']
    exact hother.back
  single := by
    refine h.single.append (hother.single.cons fun c hc => Or.inr (hother.front c hc)) ?_
    exact fun c hc _ _ => Or.inl (h.back c hc)
  blanks := List.forall_mem_append.mpr
    ⟨h.blanks, List.forall_mem_cons.mpr ⟨fun _ => hok, hother.blanks⟩⟩

theorem intercalate {parts : List (List Char)} (h : ∀ part ∈ parts, Neat ok part ∧ part ≠ [])
    (hok : ok ' ') : Neat ok ([' '].intercalate parts) ∧
      (parts ≠ [] → [' '].intercalate parts ≠ []) := by
  induction parts with
  | nil => exact ⟨nil, fun hne => absurd rfl hne⟩
  | cons part parts ih =>
      obtain ⟨⟨hpart, hne⟩, hrest⟩ := List.forall_mem_cons.mp h
      obtain ⟨hneat, hnonempty⟩ := ih hrest
      rcases parts with _ | ⟨next, parts⟩
      · rw [List.intercalate_singleton]
        exact ⟨hpart, fun _ => hne⟩
      · rw [List.intercalate_cons_cons]
        have hbehind := hnonempty (List.cons_ne_nil next parts)
        exact ⟨by simpa using hpart.append_space hneat hne hbehind hok, fun _ => by simp [hne]⟩

/-- The runs of blanks in a neat text are single blanks. -/
theorem exists_of_mem_runs (h : Neat ok text) {run : List Char}
    (hrun : run ∈ runs Unicode.isBlank text) (hblank : ∀ c ∈ run, Unicode.isBlank c = true) :
    ∃ c, run = [c] ∧ ok c := by
  have hpart := isInfix_of_mem_runs hrun
  have hchain := List.IsChain.infix h.single hpart
  rcases run with _ | ⟨c, _ | ⟨d, run⟩⟩
  · exact absurd hrun (nil_notMem_runs _ text)
  · have hc := hblank c List.mem_cons_self
    exact ⟨c, rfl, h.blanks c (hpart.subset List.mem_cons_self) hc⟩
  · obtain ⟨hpair, -⟩ := List.isChain_cons_cons.mp hchain
    rw [hblank c (by simp), hblank d (by simp)] at hpair
    rcases hpair with hpair | hpair <;> cases hpair

end Neat

/-- Whether a blank stands somewhere between two other characters. -/
def Lone (c : Char) (text : List Char) : Prop :=
  ∃ a b, [a, c, b] <:+: text ∧ Unicode.isBlank a = false ∧ Unicode.isBlank c = true ∧
    Unicode.isBlank b = false

namespace Lone

variable {c s : Char} {text other : List Char}

theorem of_part (h : Lone c text) (hpart : text <:+: other) : Lone c other := by
  obtain ⟨a, b, hin, hends⟩ := h
  exact ⟨a, b, hin.trans hpart, hends⟩

theorem cons_cases {d : Char} (h : Lone c (d :: text)) :
    Lone c text ∨ Unicode.isBlank d = false ∧ Unicode.isBlank c = true ∧
      ∃ b rest, text = c :: b :: rest ∧ Unicode.isBlank b = false := by
  obtain ⟨a, b, hin, ha, hc, hb⟩ := h
  rcases List.infix_cons_iff.mp hin with hstarts | hin
  · obtain ⟨rfl, hrest⟩ := List.cons_prefix_cons.mp hstarts
    obtain ⟨rest, rfl⟩ := hrest
    exact Or.inr ⟨ha, hc, b, rest, rfl, hb⟩
  · exact Or.inl ⟨a, b, hin, ha, hc, hb⟩

/-- What stands in front of a text may be exchanged for anything that is no blank. -/
theorem of_prev {prev : Option Char} (h : Lone c (prev.toList ++ text))
    (hs : Unicode.isBlank s = false) : Lone c (s :: text) := by
  cases prev with
  | none => exact h.of_part (List.suffix_cons s text).isInfix
  | some d =>
      rcases h.cons_cases with h | ⟨-, hc, b, rest, rfl, hb⟩
      · exact h.of_part (List.suffix_cons s text).isInfix
      · exact ⟨s, b, (List.prefix_append [s, c, b] rest).isInfix, hs, hc, hb⟩

/-- A lone blank stands on one side of a character that is no blank. -/
theorem append_cases {front : List Char} (hs : Unicode.isBlank s = false)
    (h : Lone c (front ++ s :: text)) : Lone c (front ++ [s]) ∨ Lone c (s :: text) := by
  induction front with
  | nil => exact Or.inr h
  | cons d front ih =>
      have hlater : Lone c (front ++ [s]) → Lone c (d :: front ++ [s]) := fun h =>
        h.of_part (List.suffix_cons d _).isInfix
      rcases h.cons_cases with h | ⟨hd, hc, b, rest, heq, hb⟩
      · exact (ih h).imp_left hlater
      · rcases front with _ | ⟨e, _ | ⟨f, front⟩⟩
        · obtain ⟨rfl, -⟩ := List.cons.inj heq
          rw [hs] at hc
          cases hc
        · obtain ⟨rfl, -⟩ := List.cons.inj heq
          exact Or.inl ⟨d, s, List.infix_rfl, hd, hc, hs⟩
        · obtain ⟨rfl, htail⟩ := List.cons.inj heq
          obtain ⟨rfl, -⟩ := List.cons.inj htail
          exact Or.inl ⟨d, f, (List.prefix_append [d, e, f] (front ++ [s])).isInfix, hd, hc, hb⟩

theorem of_append_blanks {blanks : List Char} (hblanks : ∀ c ∈ blanks, Unicode.isBlank c = true)
    (h : Lone c (text ++ blanks)) : Lone c text := by
  obtain ⟨a, b, ⟨front, back, heq⟩, ha, hc, hb⟩ := h
  rcases List.append_eq_append_iff.mp heq with ⟨rest, rfl, -⟩ | ⟨rest, hparts, hrest⟩
  · exact ⟨a, b, ⟨front, rest, rfl⟩, ha, hc, hb⟩
  · rcases List.eq_nil_or_concat rest with rfl | ⟨rest, d, rfl⟩
    · rw [List.append_nil] at hparts
      exact ⟨a, b, ⟨front, [], by rw [List.append_nil, hparts]⟩, ha, hc, hb⟩
    · have hlast := congrArg List.getLast? hparts
      have hb' : b = d := by simpa using hlast
      rw [hblanks b (by rw [hrest, hb']; simp)] at hb
      cases hb

theorem of_blanks_append {blanks : List Char} (hblanks : ∀ c ∈ blanks, Unicode.isBlank c = true)
    (h : Lone c (blanks ++ text)) : Lone c text := by
  induction blanks with
  | nil => exact h
  | cons d blanks ih =>
      obtain ⟨hd, hrest⟩ := List.forall_mem_cons.mp hblanks
      rcases h.cons_cases with h | ⟨hd', -⟩
      · exact ih hrest h
      · rw [hd] at hd'
        cases hd'

theorem trim (h : Lone c text) : Lone c (trim text) := by
  obtain ⟨lead, hlead, hstart⟩ := exists_trimStart text
  obtain ⟨trail, htrail, hend⟩ := exists_trimEnd (trimStart text)
  rw [hstart, hend] at h
  exact (h.of_blanks_append hlead).of_append_blanks htrail

theorem mem_runs (h : Lone c text) : [c] ∈ runs Unicode.isBlank text := by
  obtain ⟨a, b, ⟨front, back, rfl⟩, ha, hc, hb⟩ := h
  have hparts : front ++ [a, c, b] ++ back = front ++ [a] ++ ([c] ++ b :: back) := by simp
  have hfront : ∀ d ∈ (front ++ [a]).getLast?, Unicode.isBlank d = true →
      ∀ e ∈ ([c] ++ b :: back).head?, Unicode.isBlank e = false := by
    intro d hd hblank
    rw [List.getLast?_concat, Option.mem_some_iff] at hd
    rw [← hd, ha] at hblank
    cases hblank
  have hback : ∀ d ∈ [c].getLast?, Unicode.isBlank d = true →
      ∀ e ∈ (b :: back).head?, Unicode.isBlank e = false := by
    intro _ _ _ e he
    obtain rfl : b = e := Option.some.inj he
    exact hb
  rw [hparts, runs_append hfront, runs_append hback]
  exact List.mem_append_right _ (List.mem_append_left _ List.mem_cons_self)

end Lone

/-- Whether a space is the only blank that is a run of its own within a text. -/
def IsSpaced (text : List Char) : Prop :=
  ∀ run ∈ runs Unicode.isBlank (trim text),
    run.length = 1 → run.all Unicode.isBlank = true → run = [' ']

instance (text : List Char) : Decidable (IsSpaced text) :=
  inferInstanceAs (Decidable (∀ run ∈ runs Unicode.isBlank (trim text), _))

theorem IsSpaced.eq_space {text : List Char} {c : Char} (h : IsSpaced text) (hc : Lone c text) :
    c = ' ' := by
  obtain ⟨-, -, -, -, hblank, -⟩ := id hc
  have hrun := h [c] hc.trim.mem_runs rfl (by simp [hblank])
  exact List.singleton_inj.mp hrun

end ClassSkeleton.Text
