import ClassSkeleton.Proofs.Pattern.Taking

namespace ClassSkeleton.Pattern

/-!
# The branches of a node

A plain node stands for several nodes without alternatives, in the order in which they are
preferred. Each of these has one end at most, if no repetition in it can leave anything to what
comes behind. The match is then that of the first branch that has an end.
-/

namespace Spot

/-- The spot behind all the characters of a set that come next in the text. -/
def munchFrom (chars : CharSet) (s : Spot) : List Char → Spot
  | [] => s
  | c :: rest => if chars.contains c then munchFrom chars (s.step c rest) rest else s

def munch (chars : CharSet) (s : Spot) : Spot := s.munchFrom chars s.after

/-- Whether two spots stand at the same place of a text. -/
def Beside (s t : Spot) : Prop := s.before = t.before ∧ s.after = t.after

/-- Whether a character of a set comes next. -/
def Faces (s : Spot) (chars : CharSet) : Prop := ∃ c ∈ s.after.head?, chars.contains c = true

theorem Passes.munchFrom {chars : CharSet} {s : Spot} {text : List Char} (hs : s.after = text) :
    s.Passes (text.takeWhile chars.contains) [] (s.munchFrom chars text) := by
  induction text generalizing s with
  | nil => exact .refl s
  | cons c text ih =>
      rw [Spot.munchFrom]
      cases hc : chars.contains c with
      | true =>
          rw [List.takeWhile_cons_of_pos hc]
          exact (Spot.Passes.step hs).trans (ih rfl)
      | false =>
          rw [List.takeWhile_cons_of_neg (by simp [hc])]
          exact .refl s

theorem Passes.munch (chars : CharSet) (s : Spot) :
    s.Passes (s.after.takeWhile chars.contains) [] (s.munch chars) := .munchFrom rfl

theorem munch_after (chars : CharSet) (s : Spot) :
    (s.munch chars).after = s.after.dropWhile chars.contains := by
  have hparts := (Passes.munch chars s).after_eq
  have hsplit := List.takeWhile_append_dropWhile (p := chars.contains) (l := s.after)
  exact (List.append_cancel_left (hsplit.trans hparts)).symm

theorem Beside.of_passes {s t u : Spot} {text more : List Char}
    {recorded others : List (Nat × List Char)} (ht : s.Passes text recorded t)
    (hu : s.Passes more others u) (htaken : t.taken = u.taken) : t.Beside u := by
  obtain ⟨hafter, hbefore⟩ := ht.eq_of_taken hu.after_eq (htaken.trans hu.taken_eq)
  exact ⟨hbefore.trans hu.before_eq.symm, hafter⟩

end Spot

theorem findSome?_flatMap {α β γ : Type} (f : α → List β) (k : β → Option γ) (xs : List α) :
    (xs.flatMap f).findSome? k = xs.findSome? fun x => (f x).findSome? k := by
  induction xs with
  | nil => rfl
  | cons x xs ih =>
      rw [List.flatMap_cons, List.findSome?_append, ih, List.findSome?_cons]
      cases (f x).findSome? k <;> rfl

namespace Node

/-- The nodes without alternatives that a node stands for. -/
def branches : Node → List Node
  | cat x y => x.branches.flatMap fun p => y.branches.map (cat p)
  | alt _ x y => x.branches ++ y.branches
  | group index x => x.branches.map (group index)
  | x => [x]

/-- The end of a node without alternatives when its repetitions take all they can. -/
def end? : Node → Spot → Option Spot
  | empty, s => some s
  | set chars, s =>
    match s.after with
    | [] => none
    | c :: rest => if chars.contains c then some (s.step c rest) else none
  | look l, s => if l.holds s.before s.after then some s else none
  | cat x y, s => (x.end? s).bind y.end?
  | run _ chars, s => some (s.munch chars)
  | group index x, s => (x.end? s).map (s.record index)
  | _, _ => none

/-- What is sought at the ends of the branches, in their order. -/
def seek {β : Type} (x : Node) (s : Spot) (k : Spot → Option β) : Option β :=
  x.branches.findSome? fun p => (p.end? s).bind k

theorem seek_cat {β : Type} (x y : Node) (s : Spot) (k : Spot → Option β) :
    (cat x y).seek s k = x.seek s fun t => y.seek t k := by
  rw [seek, branches, findSome?_flatMap, seek]
  congr 1
  funext p
  rw [List.findSome?_map]
  cases hp : p.end? s with
  | none =>
      rw [Option.bind_none, List.findSome?_eq_none_iff]
      intro q _
      simp [end?, hp]
  | some t =>
      rw [Option.bind_some, seek]
      congr 1
      funext q
      simp [end?, hp]

theorem seek_alt {β : Type} (gate : Option Nat) (x y : Node) (s : Spot) (k : Spot → Option β) :
    (alt gate x y).seek s k = (x.seek s k).or (y.seek s k) := by
  rw [seek, branches, List.findSome?_append]
  rfl

theorem seek_group {β : Type} (index : Nat) (x : Node) (s : Spot) (k : Spot → Option β) :
    (group index x).seek s k = x.seek s fun t => k (s.record index t) := by
  rw [seek, branches, List.findSome?_map, seek]
  congr 1
  funext p
  cases hp : p.end? s <;> simp [end?, hp]

/-- Whether what comes behind a repetition goes on from the far end of it wherever it goes on from
a nearer one. -/
def Keen : Node → (Spot → Prop) → Prop
  | cat x y, goal => x.Keen (fun s => ∃ t ∈ y.end? s, goal t) ∧ y.Keen goal
  | run greedy chars, goal =>
    greedy = true ∧ ∀ s : Spot, s.Faces chars → goal s → goal (s.munch chars)
  | group _ x, goal => x.Keen goal
  | _, _ => True

theorem branches_ne_nil (x : Node) : x.branches ≠ [] := by
  induction x with
  | cat x y ihx ihy =>
      obtain ⟨p, hp⟩ := List.exists_mem_of_ne_nil _ ihx
      obtain ⟨q, hq⟩ := List.exists_mem_of_ne_nil _ ihy
      exact List.ne_nil_of_mem (List.mem_flatMap.mpr ⟨p, hp, List.mem_map_of_mem hq⟩)
  | alt gate x y ihx _ => simp [branches, ihx]
  | group index x ih => simpa [branches] using ih
  | _ => exact List.cons_ne_nil _ _

/-- Whether success at a spot depends on where the spot stands alone. -/
def Placed {β : Type} (k : Spot → Option β) : Prop :=
  ∀ s t, s.Beside t → (k s).isSome = (k t).isSome

theorem exists_beside_end? (x : Node) {s t u : Spot} (h : s.Beside t) (hu : u ∈ x.end? s) :
    ∃ v ∈ x.end? t, u.Beside v := by
  obtain ⟨hbefore, hafter⟩ := h
  induction x generalizing s t u with
  | empty =>
      obtain rfl := Option.some.inj hu
      exact ⟨t, rfl, hbefore, hafter⟩
  | set chars =>
      rw [end?] at hu ⊢
      rw [← hafter]
      cases hs : s.after with
      | nil => simp [hs] at hu
      | cons c rest =>
          simp only [hs] at hu ⊢
          split at hu
          · next hc =>
            obtain rfl := Option.some.inj hu
            exact ⟨t.step c rest, if_pos hc, by simp [Spot.step, hbefore], rfl⟩
          · cases hu
  | look l =>
      rw [end?] at hu ⊢
      rw [← hbefore, ← hafter]
      split at hu
      · next hl =>
        obtain rfl := Option.some.inj hu
        exact ⟨t, if_pos hl, hbefore, hafter⟩
      · cases hu
  | cat x y ihx ihy =>
      obtain ⟨v, hv, hu⟩ := Option.bind_eq_some_iff.mp hu
      obtain ⟨w, hw, hbefore', hafter'⟩ := ihx hv hbefore hafter
      obtain ⟨z, hz, hbeside⟩ := ihy hu hbefore' hafter'
      exact ⟨z, Option.bind_eq_some_iff.mpr ⟨w, hw, hz⟩, hbeside⟩
  | run greedy chars =>
      obtain rfl := Option.some.inj hu
      refine ⟨t.munch chars, rfl, ?_, ?_⟩
      · rw [(Spot.Passes.munch chars s).before_eq, (Spot.Passes.munch chars t).before_eq, hbefore,
          hafter]
      · rw [Spot.munch_after, Spot.munch_after, hafter]
  | group index x ih =>
      obtain ⟨v, hv, rfl⟩ := Option.map_eq_some_iff.mp hu
      obtain ⟨w, hw, hbeside⟩ := ih hv hbefore hafter
      exact ⟨t.record index w, Option.map_eq_some_iff.mpr ⟨w, hw, rfl⟩, hbeside⟩
  | alt | star | plus => cases hu

/-- Whether an end can be gone on from depends on where it stands alone. -/
theorem exists_end?_of_beside (x : Node) {goal : Spot → Prop}
    (hplaced : ∀ s t, s.Beside t → goal s → goal t) {s t : Spot} (hst : s.Beside t)
    (h : ∃ u ∈ x.end? s, goal u) : ∃ u ∈ x.end? t, goal u := by
  obtain ⟨u, hu, hgoal⟩ := h
  obtain ⟨v, hv, hbeside⟩ := exists_beside_end? x hst hu
  exact ⟨v, hv, hplaced u v hbeside hgoal⟩

theorem isSome_seek {β : Type} {x : Node} {s : Spot} {k : Spot → Option β} :
    (x.seek s k).isSome = true ↔
      ∃ p ∈ x.branches, ∃ t ∈ p.end? s, (k t).isSome = true := by
  simp [seek, List.findSome?_isSome_iff, Option.isSome_bind, Option.any_eq_true]

theorem Placed.seek {β : Type} {k : Spot → Option β} (hk : Placed k) (x : Node) :
    Placed fun s => x.seek s k := by
  have hmove (s t : Spot) (hst : s.Beside t) (h : (x.seek s k).isSome = true) :
      (x.seek t k).isSome = true := by
    obtain ⟨p, hp, u, hu, hku⟩ := isSome_seek.mp h
    have hplaced (v w : Spot) (hvw : v.Beside w) (hv : (k v).isSome = true) :
        (k w).isSome = true := hk v w hvw ▸ hv
    exact isSome_seek.mpr ⟨p, hp, exists_end?_of_beside p hplaced hst ⟨u, hu, hku⟩⟩
  exact fun s t hst =>
    Bool.eq_iff_iff.mpr ⟨hmove s t hst, hmove t s ⟨hst.1.symm, hst.2.symm⟩⟩

theorem Keen.congr {x : Node} {goal other : Spot → Prop} (h : x.Keen goal)
    (hsame : ∀ s, goal s ↔ other s) : x.Keen other := by
  have heq : goal = other := funext fun s => propext (hsame s)
  exact heq ▸ h

theorem Keen.exists_goal {x : Node} {goals : Node → Spot → Prop} {ys : List Node}
    (hys : ys ≠ []) (h : ∀ y ∈ ys, x.Keen (goals y)) : x.Keen fun s => ∃ y ∈ ys, goals y s := by
  induction x generalizing goals with
  | cat x y ihx ihy =>
      refine ⟨?_, ihy fun z hz => (h z hz).2⟩
      refine (ihx fun z hz => (h z hz).1).congr fun s => ?_
      constructor
      · rintro ⟨z, hz, t, ht, hgoal⟩
        exact ⟨t, ht, z, hz, hgoal⟩
      · rintro ⟨t, ht, z, hz, hgoal⟩
        exact ⟨z, hz, t, ht, hgoal⟩
  | run greedy chars =>
      obtain ⟨y, hy⟩ := List.exists_mem_of_ne_nil ys hys
      refine ⟨(h y hy).1, ?_⟩
      rintro s hs ⟨z, hz, hgoal⟩
      exact ⟨z, hz, (h z hz).2 s hs hgoal⟩
  | group index x ih => exact ih h
  | _ => trivial

theorem beside_of_passes {s : Spot} {spots : List Spot}
    (h : ∀ t ∈ spots, ∃ text recorded, s.Passes text recorded t) :
    ∀ t ∈ spots, ∀ u ∈ spots, t.taken = u.taken → t.Beside u := by
  intro t ht u hu htaken
  obtain ⟨_, _, hfirst⟩ := h t ht
  obtain ⟨_, _, hsecond⟩ := h u hu
  exact .of_passes hfirst hsecond htaken

theorem exists_passes_of_mem_ends {x : Node} {s t : Spot} (h : t ∈ x.ends s) :
    ∃ text recorded, s.Passes text recorded t := by
  obtain ⟨text, recorded, hpasses, -⟩ := x.leads_of_mem_ends h
  exact ⟨text, recorded, hpasses⟩

theorem exists_passes_of_mem_flatMap {x y : Node} {s t : Spot}
    (h : t ∈ (x.ends s).flatMap y.ends) : ∃ text recorded, s.Passes text recorded t := by
  obtain ⟨u, hu, ht⟩ := List.mem_flatMap.mp h
  obtain ⟨_, _, hfirst⟩ := exists_passes_of_mem_ends hu
  obtain ⟨_, _, hsecond⟩ := exists_passes_of_mem_ends ht
  exact ⟨_, _, hfirst.trans hsecond⟩

theorem exists_passes_of_mem_append {x y : Node} {s t : Spot} (h : t ∈ x.ends s ++ y.ends s) :
    ∃ text recorded, s.Passes text recorded t :=
  (List.mem_append.mp h).elim exists_passes_of_mem_ends exists_passes_of_mem_ends

theorem findSome?_firstArrivals {β : Type} {k : Spot → Option β} (hk : Placed k)
    {spots : List Spot} (hspots : ∀ s ∈ spots, ∀ t ∈ spots, s.taken = t.taken → s.Beside t)
    {seen : List Nat} (hseen : ∀ s ∈ spots, s.taken ∈ seen → k s = none) :
    (firstArrivals seen spots).findSome? k = spots.findSome? k := by
  induction spots generalizing seen with
  | nil => rfl
  | cons s spots ih =>
      obtain ⟨hs, hrest⟩ := List.forall_mem_cons.mp hseen
      have hbeside : ∀ t ∈ spots, ∀ u ∈ spots, t.taken = u.taken → t.Beside u :=
        fun t ht u hu => hspots t (List.mem_cons_of_mem s ht) u (List.mem_cons_of_mem s hu)
      rw [firstArrivals]
      by_cases hmem : s.taken ∈ seen
      · rw [if_pos (List.contains_iff_mem.mpr hmem), ih hbeside hrest, List.findSome?_cons, hs hmem]
      · rw [if_neg (mt List.contains_iff_mem.mp hmem), List.findSome?_cons, List.findSome?_cons]
        cases hks : k s with
        | some b => rfl
        | none =>
            refine ih hbeside fun t ht htaken => ?_
            rcases List.mem_cons.mp htaken with heq | htaken
            · have hsame := hk s t
                (hspots s List.mem_cons_self t (List.mem_cons_of_mem s ht) heq.symm)
              simpa [hks] using hsame
            · exact hrest t ht htaken

theorem findSome?_runEnds {β : Type} {k : Spot → Option β} {chars : CharSet}
    (hk : ∀ s : Spot, s.Faces chars → (k s).isSome = true → (k (s.munch chars)).isSome = true)
    {s : Spot} {text : List Char} (hs : s.after = text) :
    (runEnds chars s text).reverse.findSome? k = k (s.munch chars) := by
  induction text generalizing s with
  | nil => simp [runEnds, Spot.munch, hs, Spot.munchFrom]
  | cons c text ih =>
      cases hc : chars.contains c with
      | false => simp [runEnds, Spot.munch, hs, Spot.munchFrom, hc]
      | true =>
          have hmunch : s.munch chars = (s.step c text).munch chars := by
            simp [Spot.munch, hs, Spot.munchFrom, hc, Spot.step]
          have hfar := hk s ⟨c, by simp [hs], hc⟩
          rw [runEnds, if_pos hc, List.reverse_cons, List.findSome?_append, ih rfl, ← hmunch]
          cases hgoal : k (s.munch chars) with
          | some b => rfl
          | none =>
              have hnear : k s = none := by simpa [hgoal] using hfar
              simp [hnear]

section Branches

variable {β : Type} {x y : Node} {k : Spot → Option β}

theorem keen_of_cat (hkeen : ∀ p ∈ (cat x y).branches, p.Keen fun s => (k s).isSome = true) :
    (∀ p ∈ x.branches, p.Keen fun s => (y.seek s k).isSome = true) ∧
      ∀ q ∈ y.branches, q.Keen fun s => (k s).isSome = true := by
  have hboth (p : Node) (hp : p ∈ x.branches) (q : Node) (hq : q ∈ y.branches) :
      (cat p q).Keen fun s => (k s).isSome = true :=
    hkeen _ (List.mem_flatMap.mpr ⟨p, hp, List.mem_map_of_mem hq⟩)
  constructor
  · intro p hp
    have hall := Keen.exists_goal y.branches_ne_nil fun q hq => (hboth p hp q hq).1
    exact hall.congr fun s => isSome_seek.symm
  · intro q hq
    obtain ⟨p, hp⟩ := List.exists_mem_of_ne_nil _ x.branches_ne_nil
    exact (hboth p hp q hq).2

/-- What is sought behind a group does not depend on what the group has recorded. -/
theorem keen_of_group (hk : Placed k) {index : Nat}
    (hkeen : ∀ p ∈ (group index x).branches, p.Keen fun s => (k s).isSome = true) (s : Spot) :
    ∀ p ∈ x.branches, p.Keen fun t => (k (s.record index t)).isSome = true := by
  intro p hp
  have hgroup : p.Keen fun t => (k t).isSome = true :=
    hkeen (group index p) (List.mem_map_of_mem hp)
  exact hgroup.congr fun t => by rw [hk t (s.record index t) ⟨rfl, rfl⟩]

end Branches

/-- What is sought among the ends of a node is found at the end of the first branch where it can be
found. -/
theorem findSome?_ends {β : Type} {x : Node} (hplain : x.isPlain = true) {k : Spot → Option β}
    (hk : Placed k) (hkeen : ∀ p ∈ x.branches, p.Keen fun s => (k s).isSome = true) (s : Spot) :
    (x.ends s).findSome? k = x.seek s k := by
  induction x generalizing k s with
  | empty => simp [ends, seek, branches, end?]
  | set chars =>
      cases hs : s.after with
      | nil => simp [ends, seek, branches, end?, hs]
      | cons c rest => cases hc : chars.contains c <;> simp [ends, seek, branches, end?, hs, hc]
  | look l => cases hl : l.holds s.before s.after <;> simp [ends, seek, branches, end?, hl]
  | cat x y ihx ihy =>
      simp only [isPlain, Bool.and_eq_true] at hplain
      obtain ⟨hkeenx, hkeeny⟩ := keen_of_cat hkeen
      have hsame : (fun t => (y.ends t).findSome? k) = fun t => y.seek t k :=
        funext fun t => ihy hplain.2 hk hkeeny t
      rw [ends, findSome?_firstArrivals hk (beside_of_passes fun _ => exists_passes_of_mem_flatMap)
        (by simp), findSome?_flatMap, hsame, ihx hplain.1 (hk.seek y) hkeenx, seek_cat]
  | alt gate x y ihx ihy =>
      simp only [isPlain, Bool.and_eq_true, Option.isNone_iff_eq_none] at hplain
      obtain ⟨⟨rfl, hx⟩, hy⟩ := hplain
      rw [branches, List.forall_mem_append] at hkeen
      have hends : (alt none x y).ends s = firstArrivals [] (x.ends s ++ y.ends s) := rfl
      rw [hends, findSome?_firstArrivals hk (beside_of_passes fun _ => exists_passes_of_mem_append)
        (by simp), List.findSome?_append, ihx hx hk hkeen.1, ihy hy hk hkeen.2, seek_alt]
  | run greedy chars =>
      obtain ⟨rfl, hmunch⟩ := hkeen _ (List.mem_singleton_self _)
      have hends : (run true chars).ends s = (runEnds chars s s.after).reverse := rfl
      rw [hends, findSome?_runEnds hmunch rfl]
      simp [seek, branches, end?]
  | star | plus => cases hplain
  | group index x ih =>
      have hplaced : Placed fun t => k (s.record index t) := fun t u htu => hk _ _ htu
      rw [ends, List.findSome?_map, Function.comp_def, ih hplain hplaced (keen_of_group hk hkeen s) s,
        seek_group]

/-- Whether two sets are seen to have no character in common. -/
def apart : CharSet → CharSet → Bool
  | s, .one c => !s.contains c
  | .one c, t => !t.contains c
  | s, .union t u => apart s t && apart s u
  | _, .none => true
  | _, _ => false

theorem not_contains_of_apart {s t : CharSet} (h : apart s t = true) {c : Char}
    (hs : s.contains c = true) : t.contains c = false := by
  fun_induction apart s t with
  | case1 s d =>
      have hne : c ≠ d := by
        rintro rfl
        simp [hs] at h
      simpa [CharSet.contains] using hne
  | case2 d t =>
      obtain rfl : c = d := by simpa [CharSet.contains] using hs
      simpa using h
  | case3 s t u _ iht ihu =>
      obtain ⟨ht, hu⟩ := (Bool.and_eq_true _ _).mp h
      simp [CharSet.contains, iht ht hs, ihu hu hs]
  | case4 => rfl
  | case5 => cases h

/-- Whether a node has no end before a character of a set, if what comes behind it has none. -/
def shuns (chars : CharSet) : Node → Bool → Bool
  | empty, rest => rest
  | set s, _ => apart chars s
  | look l, rest => decide (l = .textEnd) || rest
  | cat x y, rest => x.shuns chars (y.shuns chars rest)
  | run _ s, rest => apart chars s && rest
  | group _ x, rest => x.shuns chars rest
  | _, _ => true

theorem munch_of_not_faces {chars : CharSet} {s : Spot}
    (h : ∀ c ∈ s.after.head?, chars.contains c = false) : s.munch chars = s := by
  rw [Spot.munch]
  cases hs : s.after with
  | nil => rfl
  | cons c rest =>
      have hc := h c (by simp [hs])
      simp [Spot.munchFrom, hc]

theorem not_exists_of_shuns {chars : CharSet} {x : Node} {rest : Bool}
    (h : x.shuns chars rest = true) {goal : Spot → Prop}
    (hplaced : ∀ s t, s.Beside t → goal s → goal t)
    (hrest : rest = true → ∀ s : Spot, s.Faces chars → ¬ goal s) {s : Spot}
    (hs : s.Faces chars) : ¬ ∃ t ∈ x.end? s, goal t := by
  induction x generalizing rest goal s with
  | empty =>
      rintro ⟨t, ht, hgoal⟩
      obtain rfl := Option.some.inj ht
      exact hrest h _ hs hgoal
  | set t =>
      rintro ⟨u, hu, -⟩
      obtain ⟨c, hc, hmem⟩ := hs
      obtain ⟨tail, hafter⟩ := List.head?_eq_some_iff.mp hc
      simp [end?, hafter, not_contains_of_apart h hmem] at hu
  | look l =>
      rintro ⟨t, ht, hgoal⟩
      rw [end?] at ht
      split at ht
      · next hl =>
        obtain rfl := Option.some.inj ht
        rcases (Bool.or_eq_true _ _).mp h with hend | hrest'
        · obtain rfl := of_decide_eq_true hend
          obtain ⟨c, hc, -⟩ := hs
          simp [List.isEmpty_iff.mp hl] at hc
        · exact hrest hrest' _ hs hgoal
      · cases ht
  | cat x y ihx ihy =>
      rintro ⟨u, hu, hgoal⟩
      obtain ⟨t, ht, hu⟩ := Option.bind_eq_some_iff.mp hu
      exact ihx h (fun _ _ => exists_end?_of_beside y hplaced)
        (fun hy t ht => ihy hy hplaced hrest ht) hs ⟨t, ht, u, hu, hgoal⟩
  | run greedy t =>
      rintro ⟨u, hu, hgoal⟩
      obtain ⟨hapart, hrest'⟩ := (Bool.and_eq_true _ _).mp h
      have hsame : s.munch t = s := by
        obtain ⟨c, hc, hmem⟩ := hs
        refine munch_of_not_faces fun d hd => ?_
        obtain rfl := Option.mem_unique hc hd
        exact not_contains_of_apart hapart hmem
      obtain rfl := Option.some.inj hu
      exact hrest hrest' s hs (hsame ▸ hgoal)
  | group index x ih =>
      rintro ⟨u, hu, hgoal⟩
      obtain ⟨t, ht, rfl⟩ := Option.map_eq_some_iff.mp hu
      exact ih h hplaced hrest hs ⟨t, ht, hplaced (s.record index t) t ⟨rfl, rfl⟩ hgoal⟩
  | alt | star | plus =>
      rintro ⟨t, ht, -⟩
      cases ht

/-- Whether every repetition in a node stands last, or before something that shuns its characters.
What comes behind the node is told by the characters that it shuns. -/
def isKeen : Node → Option (CharSet → Bool) → Bool
  | cat x y, follow =>
    x.isKeen (some fun chars => y.shuns chars (follow.any (· chars))) && y.isKeen follow
  | run greedy chars, follow => greedy && follow.all (· chars)
  | group _ x, follow => x.isKeen follow
  | _, _ => true

theorem keen_of_isKeen {x : Node} {follow : Option (CharSet → Bool)}
    (h : x.isKeen follow = true) {goal : Spot → Prop}
    (hplaced : ∀ s t, s.Beside t → goal s → goal t) (hnone : follow = none → ∀ s, goal s)
    (hfollow : ∀ f ∈ follow, ∀ chars, f chars = true → ∀ s : Spot, s.Faces chars → ¬ goal s) :
    x.Keen goal := by
  induction x generalizing follow goal with
  | cat x y ihx ihy =>
      obtain ⟨hx, hy⟩ := (Bool.and_eq_true _ _).mp h
      refine ⟨ihx hx (fun _ _ => exists_end?_of_beside y hplaced) nofun ?_,
        ihy hy hplaced hnone hfollow⟩
      rintro f hf chars hshuns s hs
      obtain rfl := Option.some.inj hf
      refine not_exists_of_shuns hshuns hplaced (fun hrest t ht => ?_) hs
      obtain ⟨f, hf, hchars⟩ := (Option.any_eq_true _ _).mp hrest
      exact hfollow f hf chars hchars t ht
  | run greedy chars =>
      obtain ⟨rfl, hall⟩ := (Bool.and_eq_true _ _).mp h
      refine ⟨rfl, fun s hs hgoal => ?_⟩
      cases follow with
      | none => exact hnone rfl _
      | some f => exact absurd hgoal (hfollow f rfl chars hall s hs)
  | group index x ih => exact ih h hplaced hnone hfollow
  | _ => trivial

/-- The match of a node is that of the first of its branches that has one. -/
theorem matchAt?_eq_branches {x : Node} (hplain : x.isPlain = true)
    (hkeen : (x.branches.all fun p => p.isKeen none) = true) (before after : List Char) :
    x.matchAt? before after = (x.seek (.start before after) some).map fun s =>
      ⟨s.taken, s.groups ++ [(0, after.take s.taken)]⟩ := by
  have hends := findSome?_ends hplain (k := some) (fun _ _ _ => rfl)
    (fun p hp => keen_of_isKeen (List.all_eq_true.mp hkeen p hp) (fun _ _ _ _ => rfl)
      (fun _ _ => rfl) nofun) (.start before after)
  have hhead (spots : List Spot) : spots.findSome? some = spots.head? := by
    cases spots <;> rfl
  rw [matchAt?, ← hhead, hends]

end Node

end ClassSkeleton.Pattern
