import ClassSkeleton.Proofs.Pattern.Gaining
import Mathlib.Data.List.Nodup

namespace ClassSkeleton.Pattern

/-!
# The heaviest text of a node

The masses are such that the built-in rules put heavier text in place of lighter text. A bound for
what a node takes can be computed from its tree. The texts of its groups do not count, since a
template brings them back.
-/

def charMass (c : Char) : Int :=
  if Unicode.isBlank c then -1
  else if c = '@' then 1000
  else if c = '*' then -10
  else if c = '&' || c = '<' then -1
  else if c = ':' || c = '_' || c.isUpper then -100
  else if c = 'e' || c = 'f' then 1
  else 0

theorem charMass_of_isBlank {c : Char} (h : Unicode.isBlank c = true) : charMass c = -1 := by
  rw [charMass, if_pos h]

/-- The mass that all characters of a set have, for the sets that are taken outside groups. -/
def CharSet.charMass? : CharSet → Option Int
  | .one c => some (charMass c)
  | .blank => some (-1)
  | _ => Option.none

namespace Node

/-- The groups of a node, in the order of the text. -/
def indices : Node → List Nat
  | empty => []
  | set _ => []
  | look _ => []
  | cat x y => x.indices ++ y.indices
  | alt _ x y => x.indices ++ y.indices
  | run _ _ => []
  | star _ _ x => x.indices
  | plus _ _ x => x.indices
  | group index x => index :: x.indices

/-- A bound for the mass that a node takes outside its groups. There is none for a node whose
groups need not all take part. -/
def heaviest? : Node → Option Int
  | empty => some 0
  | set s => s.charMass?
  | look _ => some 0
  | cat x y => do return (← x.heaviest?) + (← y.heaviest?)
  | alt _ x y =>
    if x.indices = [] ∧ y.indices = [] then do return max (← x.heaviest?) (← y.heaviest?) else none
  | run _ s => if s.charMass?.any (· ≤ 0) then some 0 else none
  | star _ _ _ => none
  | plus _ _ _ => none
  | group _ x => if x.indices = [] then some 0 else none

theorem Takes.mem_indices {x : Node} {before text after : List Char}
    {recorded : List (Nat × List Char)} (h : x.Takes before text after recorded) :
    ∀ entry ∈ recorded, entry.1 ∈ x.indices := by
  induction h with
  | empty | set | look | run | leave => simp
  | cat head tail ihx ihy =>
      intro entry hentry
      rw [indices, List.mem_append]
      rcases List.mem_append.mp hentry with hentry | hentry
      · exact Or.inr (ihy entry hentry)
      · exact Or.inl (ihx entry hentry)
  | preferred _ ih => exact fun entry hentry => List.mem_append_left _ (ih entry hentry)
  | other _ ih => exact fun entry hentry => List.mem_append_right _ (ih entry hentry)
  | again head tail ihx ihloop | plus head tail ihx ihloop =>
      intro entry hentry
      rcases List.mem_append.mp hentry with hentry | hentry
      · exact ihloop entry hentry
      · exact ihx entry hentry
  | group taken ih =>
      intro entry hentry
      rcases List.mem_cons.mp hentry with rfl | hentry
      · exact List.mem_cons_self
      · exact List.mem_cons_of_mem _ (ih entry hentry)

theorem Takes.eq_nil_of_indices {x : Node} {before text after : List Char}
    {recorded : List (Nat × List Char)} (h : x.Takes before text after recorded)
    (hnone : x.indices = []) : recorded = [] := by
  refine List.eq_nil_iff_forall_not_mem.mpr fun entry hentry => ?_
  simpa [hnone] using h.mem_indices entry hentry

end Node

theorem CharSet.charMass_of_contains {s : CharSet} {c : Char} {bound : Int}
    (hbound : s.charMass? = some bound) (h : s.contains c = true) : charMass c = bound := by
  cases s with
  | one d =>
      obtain rfl : c = d := by simpa [CharSet.contains] using h
      exact Option.some.inj hbound
  | blank =>
      rw [charMass_of_isBlank h]
      exact Option.some.inj hbound
  | _ => cases hbound

theorem mass_nonpos_of_forall {text : List Char} (h : ∀ c ∈ text, charMass c ≤ 0) :
    mass charMass text ≤ 0 := by
  induction text with
  | nil => exact Int.le_refl 0
  | cons c text ih =>
      obtain ⟨hc, htext⟩ := List.forall_mem_cons.mp h
      have hrest := ih htext
      rw [mass_cons]
      omega

theorem lookup_append_of_mem {recorded : List (Nat × List Char)}
    (hnodup : (recorded.map Prod.fst).Nodup) {entry : Nat × List Char} (h : entry ∈ recorded)
    (others : List (Nat × List Char)) : (recorded ++ others).lookup entry.1 = some entry.2 := by
  induction recorded with
  | nil => cases h
  | cons first recorded ih =>
      obtain ⟨hfirst, hrest⟩ := List.nodup_cons.mp hnodup
      rw [List.cons_append, List.lookup_cons]
      rcases List.mem_cons.mp h with rfl | h
      · simp
      · have hne : entry.1 ≠ first.1 := by
          rintro heq
          exact hfirst (heq ▸ List.mem_map_of_mem h)
        rw [beq_false_of_ne hne]
        exact ih hrest h

/-- The mass of the texts of the groups. -/
def recordedMass (recorded : List (Nat × List Char)) : Int :=
  mass charMass (recorded.flatMap Prod.snd)

theorem recordedMass_append (recorded others : List (Nat × List Char)) :
    recordedMass (recorded ++ others) = recordedMass recorded + recordedMass others := by
  simp [recordedMass]

namespace Node

theorem heaviest?_alt {gate : Option Nat} {x y : Node} {bound : Int}
    (h : (alt gate x y).heaviest? = some bound) :
    (x.indices = [] ∧ y.indices = []) ∧ ∃ first second, x.heaviest? = some first ∧
      y.heaviest? = some second ∧ max first second = bound := by
  rw [heaviest?] at h
  split at h
  · next hnone =>
    obtain ⟨first, hfirst, hmax⟩ := Option.bind_eq_some_iff.mp h
    obtain ⟨second, hsecond, htotal⟩ := Option.bind_eq_some_iff.mp hmax
    exact ⟨hnone, first, second, hfirst, hsecond, Option.some.inj htotal⟩
  · cases h

/-- A text that a node takes is no heavier than the bound and the groups together, each of which
has been recorded once. -/
theorem Takes.mass_le {x : Node} {before text after : List Char}
    {recorded : List (Nat × List Char)} (h : x.Takes before text after recorded) {bound : Int}
    (hbound : x.heaviest? = some bound) :
    mass charMass text ≤ bound + recordedMass recorded ∧
      recorded.map Prod.fst = x.indices.reverse := by
  induction h generalizing bound with
  | empty | look =>
      obtain rfl := Option.some.inj hbound
      exact ⟨Int.le_refl _, rfl⟩
  | set mem =>
      have hc := CharSet.charMass_of_contains hbound mem
      exact ⟨by simp [hc, recordedMass], rfl⟩
  | cat head tail ihx ihy =>
      obtain ⟨first, hfirst, hsum⟩ := Option.bind_eq_some_iff.mp hbound
      obtain ⟨second, hsecond, htotal⟩ := Option.bind_eq_some_iff.mp hsum
      obtain rfl := Option.some.inj htotal
      obtain ⟨hx, hxgroups⟩ := ihx hfirst
      obtain ⟨hy, hygroups⟩ := ihy hsecond
      refine ⟨?_, ?_⟩
      · rw [mass_append, recordedMass_append]
        omega
      · rw [List.map_append, hxgroups, hygroups, indices, List.reverse_append]
  | preferred taken ih =>
      obtain ⟨hnone, first, second, hfirst, hsecond, rfl⟩ := heaviest?_alt hbound
      obtain ⟨hx, hgroups⟩ := ih hfirst
      exact ⟨by omega, by simp [hgroups, indices, hnone]⟩
  | other taken ih =>
      obtain ⟨hnone, first, second, hfirst, hsecond, rfl⟩ := heaviest?_alt hbound
      obtain ⟨hy, hgroups⟩ := ih hsecond
      exact ⟨by omega, by simp [hgroups, indices, hnone]⟩
  | @run _ chars _ text _ mem =>
      rw [heaviest?] at hbound
      split at hbound
      · next hchars =>
        obtain ⟨one, hone, hle⟩ := (Option.any_eq_true _ _).mp hchars
        obtain rfl := Option.some.inj hbound
        refine ⟨?_, rfl⟩
        have hrun : mass charMass text ≤ 0 := mass_nonpos_of_forall fun c hc => by
          rw [CharSet.charMass_of_contains hone (mem c hc)]
          exact of_decide_eq_true hle
        simpa [recordedMass] using hrun
      · cases hbound
  | leave | again | plus => cases hbound
  | group taken ih =>
      rw [heaviest?] at hbound
      split at hbound
      · next hnone =>
        obtain rfl := Option.some.inj hbound
        obtain rfl := taken.eq_nil_of_indices hnone
        exact ⟨by simp [recordedMass], by simp [indices, hnone]⟩
      · cases hbound

end Node

end ClassSkeleton.Pattern
