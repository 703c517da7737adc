import ClassSkeleton.Pattern.Replace
import ClassSkeleton.Pattern.Template
import ClassSkeleton.Proofs.Markup.Places
import ClassSkeleton.Proofs.Pattern.Spanning

namespace ClassSkeleton.Pattern

/-!
# Tracking a node through markup

From the tree of a node it can be computed where in markup the node can end, when it is known where
it begins, unless it may complete one of the watched words. What a template writes can be followed in
the same way. If both lead to one place, what is replaced and what is put there look the same from
outside.
-/

open Markup hiding Node

section Places

variable (words : List (List Char))

/-- All places that can be reached in markup. -/
def places : List Place :=
  .out :: .other false :: .other true :: .name [] ::
    (words.flatMap List.inits).map Place.name

/-- The characters that a place tells from others. -/
def marksAt : Place → List Char
  | .out => ['<', '>']
  | .name begun => '<' :: '>' :: '"' :: words.filterMap fun word => (word.drop begun.length).head?
  | .other _ => ['<', '>', '"']

/-- The place behind a character that is not told from others. -/
def passing : Place → Place
  | .out => .out
  | .name _ => .other false
  | .other quoted => .other quoted

/-- The place behind a character, if there is one, where no word is completed. -/
def quietStep (p : Place) (c : Char) : Option (List Place) :=
  match p.step words c with
  | none => some []
  | some (q, []) => some [q]
  | some (_, _ :: _) => none

/-- What a function gives for the members of a list together, if it gives something for each. -/
def collect {α β : Type} (f : α → Option (List β)) : List α → Option (List β)
  | [] => some []
  | a :: as => do
    let first ← f a
    let others ← collect f as
    return first ++ others

/-- The places behind a character of a set, where no word is completed. -/
def across (s : CharSet) (p : Place) : Option (List Place) :=
  match s with
  | .one c => quietStep words p c
  | s => (collect (quietStep words p) ((marksAt words p).filter s.contains)).map (passing p :: ·)

/-- The places behind any number of characters of a set. -/
def saturate (s : CharSet) : Nat → List Place → Option (List Place)
  | 0, _ => none
  | n + 1, S => do
    let next ← collect (across words s) S
    let fresh := next.filter (· ∉ S)
    if fresh.isEmpty then return S else saturate s n (S ++ fresh)

variable {words} {p q : Place} {c : Char}

theorem step_of_notMem_marksAt (h : c ∉ marksAt words p) :
    p.step words c = some (passing p, []) := by
  cases p with
  | out => simp_all [marksAt, Place.step, passing]
  | other quoted => simp_all [marksAt, Place.step, passing]
  | name begun =>
      simp only [marksAt, List.mem_cons, not_or] at h
      obtain ⟨hless, hgreater, hquote, hnext⟩ := h
      have hbegins : ¬ words.any (begun ++ [c]).isPrefixOf = true := by
        intro hany
        obtain ⟨word, hword, hfits⟩ := List.any_eq_true.mp hany
        obtain ⟨rest, rfl⟩ := List.isPrefixOf_iff_prefix.mp hfits
        exact hnext (List.mem_filterMap.mpr ⟨_, hword, by simp⟩)
      simp [Place.step, passing, hless, hgreater, hquote, hbegins]

theorem mem_of_quietStep {S : List Place} {found : List (List Char)}
    (h : quietStep words p c = some S) (hstep : p.step words c = some (q, found)) :
    q ∈ S ∧ found = [] := by
  rw [quietStep, hstep] at h
  cases found with
  | nil =>
      obtain rfl := Option.some.inj h
      exact ⟨List.mem_singleton_self q, rfl⟩
  | cons => cases h

theorem exists_of_collect {α β : Type} {f : α → Option (List β)} {as : List α} {bs : List β}
    (h : collect f as = some bs) : ∀ a ∈ as, ∃ some', f a = some some' ∧ some' ⊆ bs := by
  induction as generalizing bs with
  | nil => simp
  | cons a as ih =>
      obtain ⟨first, hfirst, hrest⟩ := Option.bind_eq_some_iff.mp h
      obtain ⟨others, hothers, hboth⟩ := Option.bind_eq_some_iff.mp hrest
      obtain rfl := Option.some.inj hboth
      refine List.forall_mem_cons.mpr ⟨⟨first, hfirst, List.subset_append_left _ _⟩, ?_⟩
      intro b hb
      obtain ⟨found, hfound, hsub⟩ := ih hothers b hb
      exact ⟨found, hfound, List.Subset.trans hsub (List.subset_append_right _ _)⟩

theorem mem_of_across {s : CharSet} {S : List Place} {found : List (List Char)}
    (h : across words s p = some S) (hc : s.contains c = true)
    (hstep : p.step words c = some (q, found)) : q ∈ S ∧ found = [] := by
  have hsets (hall : (collect (quietStep words p) ((marksAt words p).filter s.contains)).map
      (passing p :: ·) = some S) : q ∈ S ∧ found = [] := by
    obtain ⟨told, htold, rfl⟩ := Option.map_eq_some_iff.mp hall
    by_cases hmark : c ∈ marksAt words p
    · obtain ⟨near, hnear, hsub⟩ :=
        exists_of_collect htold c (List.mem_filter.mpr ⟨hmark, hc⟩)
      obtain ⟨hq, rfl⟩ := mem_of_quietStep hnear hstep
      exact ⟨List.mem_cons_of_mem _ (hsub hq), rfl⟩
    · obtain ⟨rfl, rfl⟩ := Prod.mk.inj
        (Option.some.inj ((step_of_notMem_marksAt hmark).symm.trans hstep))
      exact ⟨List.mem_cons_self, rfl⟩
  cases s with
  | one d =>
      obtain rfl : c = d := by simpa [CharSet.contains] using hc
      exact mem_of_quietStep h hstep
  | _ => exact hsets h

theorem saturate_closed {s : CharSet} {n : Nat} {S Q : List Place}
    (h : saturate words s n S = some Q) :
    S ⊆ Q ∧ ∃ next, collect (across words s) Q = some next ∧ next ⊆ Q := by
  induction n generalizing S with
  | zero => cases h
  | succ n ih =>
      obtain ⟨next, hnext, hrest⟩ := Option.bind_eq_some_iff.mp h
      simp only at hrest
      split at hrest
      · next hempty =>
          obtain rfl := Option.some.inj hrest
          refine ⟨List.Subset.refl S, next, hnext, ?_⟩
          intro q hq
          by_contra hfresh
          have hmem : q ∈ next.filter (· ∉ S) :=
            List.mem_filter.mpr ⟨hq, decide_eq_true hfresh⟩
          rw [List.isEmpty_iff.mp hempty] at hmem
          cases hmem
      · obtain ⟨hsub, hclosed⟩ := ih hrest
        exact ⟨List.Subset.trans (List.subset_append_left _ _) hsub, hclosed⟩

theorem mem_of_runs_closed {s : CharSet} {Q next : List Place}
    (hnext : collect (across words s) Q = some next) (hclosed : next ⊆ Q) {text : List Char}
    (htext : ∀ c ∈ text, s.contains c = true) {found : List (List Char)} (hp : p ∈ Q)
    (h : Runs words p text q found) : q ∈ Q ∧ found = [] := by
  induction h with
  | done => exact ⟨hp, rfl⟩
  | step head _ ih =>
      obtain ⟨hc, hrest⟩ := List.forall_mem_cons.mp htext
      obtain ⟨near, hnear, hsub⟩ := exists_of_collect hnext _ hp
      obtain ⟨hq, rfl⟩ := mem_of_across hnear hc head
      exact ih hrest (hclosed (hsub hq))

theorem mem_places_of_step {found : List (List Char)} (hstep : p.step words c = some (q, found)) :
    q ∈ places words := by
  cases p with
  | out =>
      rw [Place.step] at hstep
      split at hstep
      · obtain ⟨rfl, -⟩ := Prod.mk.inj (Option.some.inj hstep)
        simp [places]
      · split at hstep
        · cases hstep
        · obtain ⟨rfl, -⟩ := Prod.mk.inj (Option.some.inj hstep)
          simp [places]
  | name begun =>
      rw [Place.step] at hstep
      split at hstep
      · cases hstep
      · split at hstep
        · obtain ⟨rfl, -⟩ := Prod.mk.inj (Option.some.inj hstep)
          simp [places]
        · split at hstep
          · next hbegins =>
              obtain ⟨rfl, -⟩ := Prod.mk.inj (Option.some.inj hstep)
              obtain ⟨word, hword, hfits⟩ := List.any_eq_true.mp hbegins
              simpa [places] using ⟨word, hword, List.isPrefixOf_iff_prefix.mp hfits⟩
          · obtain ⟨rfl, -⟩ := Prod.mk.inj (Option.some.inj hstep)
            by_cases hquote : c = '"' <;> simp [places, hquote]
  | other quoted =>
      rw [Place.step] at hstep
      split at hstep
      · cases hstep
      · split at hstep
        · split at hstep
          · cases hstep
          · obtain ⟨rfl, -⟩ := Prod.mk.inj (Option.some.inj hstep)
            simp [places]
        · obtain ⟨rfl, -⟩ := Prod.mk.inj (Option.some.inj hstep)
          generalize (if c = '"' then !quoted else quoted) = next
          cases next <;> simp [places]

theorem mem_places_of_runs {text : List Char} {found : List (List Char)} (hp : p ∈ places words)
    (h : Runs words p text q found) : q ∈ places words := by
  induction h with
  | done => exact hp
  | step head _ ih => exact ih (mem_places_of_step head)

end Places

section Nodes

variable (words : List (List Char))

/-- The places where a node can end that begins at one of some places. -/
def Node.reach : Node → List Place → Option (List Place)
  | empty, S => some S
  | set s, S => collect (across words s) S
  | look _, S => some S
  | cat x y, S => (x.reach S).bind y.reach
  | alt _ x y, S => do
    let first ← x.reach S
    let second ← y.reach S
    return first ++ second
  | run _ s, S => saturate words s (places words).length S
  | star _ _ _, _ => none
  | plus _ _ _, _ => none
  | group _ x, S => x.reach S

/-- The places where the groups of a node can begin, and those where they can end. -/
def Node.spans : Node → List Place → List (Nat × List Place × List Place)
  | cat x y, S => x.spans S ++ y.spans ((x.reach words S).getD [])
  | alt _ x y, S => x.spans S ++ y.spans S
  | group index x, S => (index, S, (x.reach words S).getD []) :: x.spans S
  | _, _ => []

variable {words} {x : Node} {before text after : List Char} {recorded : List (Nat × List Char)}
  {S Q : List Place} {p q : Place} {found : List (List Char)}

theorem Node.Takes.reach (h : x.Takes before text after recorded)
    (hreach : x.reach words S = some Q) (hp : p ∈ S) (hrun : Runs words p text q found) :
    q ∈ Q ∧ found = [] := by
  induction h generalizing S Q p q found with
  | empty | look =>
      obtain rfl := Option.some.inj hreach
      cases hrun
      exact ⟨hp, rfl⟩
  | set mem =>
      obtain ⟨near, hnear, hsub⟩ := exists_of_collect hreach p hp
      cases hrun with
      | step head tail =>
          cases tail
          obtain ⟨hq, rfl⟩ := mem_of_across hnear mem head
          exact ⟨hsub hq, rfl⟩
  | cat _ _ ihx ihy =>
      obtain ⟨R, hx, hy⟩ := Option.bind_eq_some_iff.mp hreach
      obtain ⟨r, first, second, hfirst, hsecond, rfl⟩ := hrun.split
      obtain ⟨hr, rfl⟩ := ihx hx hp hfirst
      exact ihy hy hr hsecond
  | preferred _ ih =>
      obtain ⟨first, hfirst, hrest⟩ := Option.bind_eq_some_iff.mp hreach
      obtain ⟨second, hsecond, hboth⟩ := Option.bind_eq_some_iff.mp hrest
      obtain rfl := Option.some.inj hboth
      exact (ih hfirst hp hrun).imp_left (List.mem_append_left _)
  | other _ ih =>
      obtain ⟨first, hfirst, hrest⟩ := Option.bind_eq_some_iff.mp hreach
      obtain ⟨second, hsecond, hboth⟩ := Option.bind_eq_some_iff.mp hrest
      obtain rfl := Option.some.inj hboth
      exact (ih hsecond hp hrun).imp_left (List.mem_append_right _)
  | run mem =>
      obtain ⟨hsub, next, hnext, hclosed⟩ := saturate_closed hreach
      exact mem_of_runs_closed hnext hclosed mem (hsub hp) hrun
  | leave | again | plus => cases hreach
  | group _ ih => exact ih hreach hp hrun

/-- What a group takes leads from a place where it can begin to one where it can end. -/
theorem Node.Takes.spans (h : x.Takes before text after recorded)
    (hreach : x.reach words S = some Q) (hp : p ∈ S) (hrun : Runs words p text q found) :
    ∀ entry ∈ recorded, ∃ span ∈ x.spans words S, span.1 = entry.1 ∧
      ∃ r ∈ span.2.1, ∃ s ∈ span.2.2, Runs words r entry.2 s [] := by
  induction h generalizing S Q p q found with
  | empty | look | set | run | leave => simp
  | cat head _ ihx ihy =>
      obtain ⟨R, hx, hy⟩ := Option.bind_eq_some_iff.mp hreach
      obtain ⟨r, first, second, hfirst, hsecond, rfl⟩ := hrun.split
      obtain ⟨hr, rfl⟩ := head.reach hx hp hfirst
      intro entry hentry
      rw [Node.spans, hx, Option.getD_some]
      rcases List.mem_append.mp hentry with hentry | hentry
      · obtain ⟨span, hspan, hholds⟩ := ihy hy hr hsecond entry hentry
        exact ⟨span, List.mem_append_right _ hspan, hholds⟩
      · obtain ⟨span, hspan, hholds⟩ := ihx hx hp hfirst entry hentry
        exact ⟨span, List.mem_append_left _ hspan, hholds⟩
  | preferred _ ih =>
      obtain ⟨first, hfirst, -⟩ := Option.bind_eq_some_iff.mp hreach
      intro entry hentry
      obtain ⟨span, hspan, hholds⟩ := ih hfirst hp hrun entry hentry
      exact ⟨span, List.mem_append_left _ hspan, hholds⟩
  | other _ ih =>
      obtain ⟨first, hfirst, hrest⟩ := Option.bind_eq_some_iff.mp hreach
      obtain ⟨second, hsecond, -⟩ := Option.bind_eq_some_iff.mp hrest
      intro entry hentry
      obtain ⟨span, hspan, hholds⟩ := ih hsecond hp hrun entry hentry
      exact ⟨span, List.mem_append_right _ hspan, hholds⟩
  | again | plus => cases hreach
  | group taken ih =>
      intro entry hentry
      obtain ⟨hq, rfl⟩ := taken.reach hreach hp hrun
      rcases List.mem_cons.mp hentry with rfl | hentry
      · rw [Node.reach] at hreach
        rw [Node.spans, hreach, Option.getD_some]
        exact ⟨_, List.mem_cons_self, rfl, p, hp, q, hq, hrun⟩
      · obtain ⟨span, hspan, hholds⟩ := ih hreach hp hrun entry hentry
        exact ⟨span, List.mem_cons_of_mem _ hspan, hholds⟩

end Nodes

end ClassSkeleton.Pattern
