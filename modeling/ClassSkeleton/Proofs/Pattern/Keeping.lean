import ClassSkeleton.Pattern.Template
import ClassSkeleton.Proofs.Pattern.Heaviest
import ClassSkeleton.Proofs.Text.Outline

namespace ClassSkeleton.Pattern

/-!
# Replacements that keep the outline

From the tree of a node it can be seen which brackets and commas it takes outside its groups, and
from a template which ones it writes. Where the two agree and every group is brought back in its
place, a replacement keeps the outline of the text.
-/

open Text

/-- A part of an outline: a bracket or comma, or what a group contributes. -/
inductive Stroke where
  | mark (c : Char)
  | group (index : Nat)
  deriving DecidableEq, Repr

def Stroke.draw (f : Nat → List Char) : Stroke → List Char
  | mark c => [c]
  | group index => outline (f index)

def CharSet.strokes? (s : CharSet) : Option (List Stroke) :=
  if marks.all fun c => !s.contains c then some []
  else
    match s with
    | .one c => some [.mark c]
    | _ => Option.none

def Node.strokes? : Node → Option (List Stroke)
  | empty => some []
  | set s => s.strokes?
  | look _ => some []
  | cat x y => do return (← x.strokes?) ++ (← y.strokes?)
  | alt _ x y => if x.strokes? = y.strokes? then x.strokes? else none
  | run _ s => if s.strokes? = some [] then some [] else none
  | star _ _ _ => none
  | plus _ _ _ => none
  | group index x => if x.indices = [] then some [.group index] else none

def Part.strokes? : Part → Option (List Stroke)
  | char c => some (if c ∈ marks then [.mark c] else [])
  | numbered index => some [.group index]
  | named _ => none

def Template.strokes? : List Part → Option (List Stroke)
  | [] => some []
  | part :: parts => do return (← part.strokes?) ++ (← strokes? parts)

theorem CharSet.outline_of_contains {s : CharSet} {strokes : List Stroke}
    (hstrokes : s.strokes? = some strokes) {c : Char} (h : s.contains c = true)
    (f : Nat → List Char) : outline [c] = strokes.flatMap (Stroke.draw f) := by
  rw [strokes?.eq_def] at hstrokes
  split at hstrokes
  · next hnone =>
    obtain rfl := Option.some.inj hstrokes
    apply outline_of_notMem
    intro d hd hmark
    obtain rfl := List.mem_singleton.mp hd
    have hnot := List.all_eq_true.mp hnone d hmark
    rw [h] at hnot
    cases hnot
  · next hsome =>
    cases s with
    | one d =>
        obtain rfl := Option.some.inj hstrokes
        obtain rfl : c = d := by simpa [contains] using h
        have hmark : c ∈ marks := by
          by_contra hnot
          refine hsome (List.all_eq_true.mpr fun m hm => ?_)
          have hne : m ≠ c := fun heq => hnot (heq ▸ hm)
          simp [contains, hne]
        rw [outline_cons_of_mem hmark]
        rfl
    | _ => cases hstrokes

namespace Node

/-- The outline of what a node takes is as its tree says, whatever the groups have taken. -/
theorem Takes.outline_eq {x : Node} {before text after : List Char}
    {recorded : List (Nat × List Char)} (h : x.Takes before text after recorded)
    {strokes : List Stroke} (hstrokes : x.strokes? = some strokes) {f : Nat → List Char}
    (hf : ∀ entry ∈ recorded, f entry.1 = entry.2) :
    outline text = strokes.flatMap (Stroke.draw f) := by
  induction h generalizing strokes with
  | empty | look =>
      obtain rfl := Option.some.inj hstrokes
      rfl
  | set mem => exact CharSet.outline_of_contains hstrokes mem f
  | cat head tail ihx ihy =>
      obtain ⟨first, hfirst, hrest⟩ := Option.bind_eq_some_iff.mp hstrokes
      obtain ⟨second, hsecond, hall⟩ := Option.bind_eq_some_iff.mp hrest
      obtain rfl := Option.some.inj hall
      obtain ⟨hmore, hgroups⟩ := List.forall_mem_append.mp hf
      rw [outline_append, List.flatMap_append, ihx hfirst hgroups, ihy hsecond hmore]
  | preferred taken ih =>
      rw [strokes?] at hstrokes
      split at hstrokes
      · exact ih hstrokes hf
      · cases hstrokes
  | other taken ih =>
      rw [strokes?] at hstrokes
      split at hstrokes
      · next heq => exact ih (heq ▸ hstrokes) hf
      · cases hstrokes
  | @run _ chars _ text _ mem =>
      rw [strokes?] at hstrokes
      split at hstrokes
      · next hnone =>
        obtain rfl := Option.some.inj hstrokes
        apply outline_of_notMem
        intro c hc hmark
        have hempty := CharSet.outline_of_contains hnone (mem c hc) f
        rw [outline_cons_of_mem hmark] at hempty
        cases hempty
      · cases hstrokes
  | leave | again | plus => cases hstrokes
  | group taken _ =>
      rw [strokes?] at hstrokes
      split at hstrokes
      · obtain rfl := Option.some.inj hstrokes
        have htext := hf _ List.mem_cons_self
        simp [Stroke.draw, htext]
      · cases hstrokes

/-- Every group is recorded once at most, the latest first. -/
theorem Takes.sublist_indices {x : Node} {before text after : List Char}
    {recorded : List (Nat × List Char)} (h : x.Takes before text after recorded)
    {strokes : List Stroke} (hstrokes : x.strokes? = some strokes) :
    (recorded.map Prod.fst).Sublist x.indices.reverse := by
  induction h generalizing strokes with
  | empty | set | look | run => exact List.nil_sublist _
  | cat head tail ihx ihy =>
      obtain ⟨first, hfirst, hrest⟩ := Option.bind_eq_some_iff.mp hstrokes
      obtain ⟨second, hsecond, -⟩ := Option.bind_eq_some_iff.mp hrest
      rw [List.map_append, indices, List.reverse_append]
      exact (ihy hsecond).append (ihx hfirst)
  | preferred taken ih =>
      rw [strokes?] at hstrokes
      split at hstrokes
      · rw [indices, List.reverse_append]
        exact (ih hstrokes).trans (List.sublist_append_right _ _)
      · cases hstrokes
  | other taken ih =>
      rw [strokes?] at hstrokes
      split at hstrokes
      · next heq =>
        rw [indices, List.reverse_append]
        exact (ih (heq ▸ hstrokes)).trans (List.sublist_append_left _ _)
      · cases hstrokes
  | leave | again | plus => cases hstrokes
  | group taken _ =>
      rw [strokes?] at hstrokes
      split at hstrokes
      · next hnone =>
        obtain rfl := taken.eq_nil_of_indices hnone
        simp [indices, hnone]
      · cases hstrokes

end Node

theorem Part.outline_expandPart {part : Part} {strokes : List Stroke}
    (h : part.strokes? = some strokes) (names : List (String × Nat)) (m : Match) :
    outline (Template.expandPart names m part) =
      strokes.flatMap (Stroke.draw fun index => (m.group? index).getD []) := by
  cases part with
  | char c =>
      obtain rfl := Option.some.inj h
      rw [Template.expandPart]
      split
      · next hmark =>
        rw [outline_cons_of_mem hmark]
        rfl
      · next hmark =>
        rw [outline_cons_of_notMem hmark]
        rfl
  | numbered index =>
      obtain rfl := Option.some.inj h
      simp [Template.expandPart, Stroke.draw]
  | named name => cases h

theorem Template.outline_expand {parts : List Part} {strokes : List Stroke}
    (h : strokes? parts = some strokes) (names : List (String × Nat)) (m : Match) :
    outline (expand names parts m) =
      strokes.flatMap (Stroke.draw fun index => (m.group? index).getD []) := by
  induction parts generalizing strokes with
  | nil =>
      obtain rfl := Option.some.inj h
      rfl
  | cons part parts ih =>
      obtain ⟨first, hfirst, hrest⟩ := Option.bind_eq_some_iff.mp h
      obtain ⟨second, hsecond, hall⟩ := Option.bind_eq_some_iff.mp hrest
      obtain rfl := Option.some.inj hall
      have hparts := ih hsecond
      rw [expand] at hparts ⊢
      rw [List.flatMap_cons, outline_append, List.flatMap_append, hparts,
        Part.outline_expandPart hfirst]

/-- Whether what replaces a match always has its outline. -/
def Keeps (find : Finder) (expand : Match → List Char) : Prop :=
  ∀ before after m, find before after = some m →
    outline (expand m) = outline (after.take m.length)

/-- Whether a template brings back the groups of a node, and the brackets and commas around them,
in their order. -/
def keepsOutline (x : Node) (parts : List Part) : Bool :=
  decide x.indices.Nodup && x.strokes?.any fun strokes =>
    decide (Template.strokes? parts = some strokes)

theorem keeps_of_keepsOutline {x : Node} {parts : List Part} (h : keepsOutline x parts = true)
    (names : List (String × Nat)) : Keeps x.matchAt? (Template.expand names parts) := by
  intro before after m hm
  obtain ⟨text, rest, recorded, rfl, rfl, htakes⟩ := Node.exists_takes_of_matchAt? hm
  obtain ⟨hnodup, hsame⟩ := (Bool.and_eq_true _ _).mp h
  obtain ⟨strokes, hstrokes, hparts⟩ := (Option.any_eq_true _ _).mp hsame
  have hrecorded : (recorded.map Prod.fst).Nodup :=
    ((List.nodup_reverse.mpr (of_decide_eq_true hnodup)).sublist
      (htakes.sublist_indices hstrokes))
  rw [Template.outline_expand (of_decide_eq_true hparts), List.take_left]
  refine (htakes.outline_eq hstrokes fun entry hentry => ?_).symm
  rw [Match.group?, lookup_append_of_mem hrecorded hentry, Option.getD_some]

/-- What is left of the text behind the last match keeps its outline. -/
theorem Keeps.outline_replaceFrom {find : Finder} {expand : Match → List Char}
    (h : Keeps find expand) (before : List Char) (skip : Nat) (adjoins : Bool)
    (text : List Char) :
    outline (replaceFrom find expand before skip adjoins text) = outline (text.drop skip) := by
  induction text generalizing before skip adjoins with
  | nil =>
      cases hfind : find before [] with
      | none => simp [replaceFrom, hfind]
      | some m =>
          have hempty : outline (expand m) = [] := by simpa using h before [] m hfind
          cases adjoins <;> simp [replaceFrom, hfind, hempty]
  | cons c rest ih =>
      cases skip with
      | succ skip => rw [replaceFrom, ih, List.drop_succ_cons]
      | zero =>
          have hnext := ih (c :: before) 0 false
          cases hfind : find before (c :: rest) with
          | none =>
              simp only [replaceFrom, hfind]
              rw [outline_cons, hnext, ← outline_append]
              rfl
          | some m =>
              have hkept := h before (c :: rest) m hfind
              cases hm : m.length with
              | zero =>
                  rw [hm, List.take_zero, outline_nil] at hkept
                  have hempty : outline (if adjoins then [] else expand m) = [] := by
                    cases adjoins
                    · exact hkept
                    · rfl
                  simp only [replaceFrom, hfind, hm]
                  rw [outline_append, hempty, outline_cons, hnext, ← outline_append]
                  rfl
              | succ n =>
                  have hbehind := ih (c :: before) n true
                  rw [hm] at hkept
                  simp only [replaceFrom, hfind, hm]
                  rw [outline_append, hkept, hbehind, ← outline_append, List.take_succ_cons,
                    List.cons_append, List.take_append_drop, List.drop_zero]

end ClassSkeleton.Pattern
