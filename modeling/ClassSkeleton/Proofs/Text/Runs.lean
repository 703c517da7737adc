import Mathlib.Data.List.SplitBy

namespace ClassSkeleton.Text

/-!
# Runs

A text falls into the runs of the characters of one class, each as long as it can be, and the other
characters, each for itself.
-/

def runs (p : Char → Bool) (text : List Char) : List (List Char) :=
  text.splitBy fun c d => p c && p d

section

variable {p : Char → Bool}

/-- A text may be cut wherever no run is cut. -/
theorem runs_append {front back : List Char}
    (h : ∀ c ∈ front.getLast?, p c = true → ∀ d ∈ back.head?, p d = false) :
    runs p (front ++ back) = runs p front ++ runs p back := by
  refine List.splitBy_append fun c hc d hd => ?_
  cases hclass : p c with
  | false => rfl
  | true => rw [h c hc hclass d hd, Bool.and_false]

theorem runs_of_forall {run : List Char} (hne : run ≠ []) (h : ∀ c ∈ run, p c = true) :
    runs p run = [run] := by
  have hpairs : run.Pairwise fun c d => (p c && p d) = true :=
    List.pairwise_iff_forall_sublist.mpr fun hsub => by
      rw [h _ (hsub.subset List.mem_cons_self), h _ (hsub.subset (by simp)), Bool.and_self]
  exact List.splitBy_of_isChain hne hpairs.isChain

theorem flatten_runs (p : Char → Bool) (text : List Char) : (runs p text).flatten = text :=
  List.flatten_splitBy _ text

theorem nil_notMem_runs (p : Char → Bool) (text : List Char) : [] ∉ runs p text :=
  List.nil_notMem_splitBy _ text

theorem isInfix_of_mem_runs {run text : List Char} (h : run ∈ runs p text) : run <:+: text := by
  rw [← flatten_runs p text]
  exact List.infix_of_mem_flatten h

/-- A text is empty, or it starts with a character of another class or with all of a run. -/
@[elab_as_elim]
theorem runs_induction (p : Char → Bool) {motive : List Char → Prop} (text : List Char)
    (nil : motive []) (other : ∀ c rest, p c = false → motive rest → motive (c :: rest))
    (run : ∀ run rest, run ≠ [] → (∀ c ∈ run, p c = true) → (∀ c ∈ rest.head?, p c = false) →
      motive rest → motive (run ++ rest)) : motive text := by
  induction hlength : text.length using Nat.strongRecOn generalizing text with
  | ind n ih =>
      rcases text with _ | ⟨c, text⟩
      · exact nil
      · cases hc : p c with
        | false => exact other c text hc (ih text.length (by simp [← hlength]) text rfl)
        | true =>
            have hrest : ∀ d ∈ (text.dropWhile p).head?, p d = false := by
              intro d hd
              have hnot := List.head?_dropWhile_not p text
              rw [Option.mem_def.mp hd] at hnot
              simpa using hnot
            have hrun : ∀ d ∈ c :: text.takeWhile p, p d = true := List.forall_mem_cons.mpr
              ⟨hc, fun d hd => List.all_eq_true.mp List.all_takeWhile d hd⟩
            have hshort := (List.dropWhile_suffix (p := p) (l := text)).length_le
            have hwhole := run _ _ (List.cons_ne_nil c _) hrun hrest
              (ih _ (by rw [← hlength, List.length_cons]; omega) _ rfl)
            rwa [List.cons_append, List.takeWhile_append_dropWhile] at hwhole

end

end ClassSkeleton.Text
