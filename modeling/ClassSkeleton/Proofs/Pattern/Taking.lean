import ClassSkeleton.Pattern.Match

namespace ClassSkeleton.Pattern

/-!
# What a node takes

A node takes a text between what stands before it and what stands after it, and records the texts
of its groups. Every end that the matcher finds is that of such a text.
-/

/-- Whether a node takes `text` between `before`, read backwards, and `after`, and records some
groups on the way, the latest first. -/
inductive Node.Takes : Node → (before text after : List Char) → List (Nat × List Char) → Prop
  | empty {before after : List Char} : Takes .empty before [] after []
  | set {chars : CharSet} {before after : List Char} {c : Char}
      (mem : chars.contains c = true) : Takes (.set chars) before [c] after []
  | look {l : Look} {before after : List Char} (holds : l.holds before after = true) :
      Takes (.look l) before [] after []
  | cat {x y : Node} {before first second after : List Char}
      {groups more : List (Nat × List Char)} (head : Takes x before first (second ++ after) groups)
      (tail : Takes y (first.reverse ++ before) second after more) :
      Takes (.cat x y) before (first ++ second) after (more ++ groups)
  | preferred {gate : Option Nat} {x y : Node} {before text after : List Char}
      {groups : List (Nat × List Char)} (taken : Takes x before text after groups) :
      Takes (.alt gate x y) before text after groups
  | other {gate : Option Nat} {x y : Node} {before text after : List Char}
      {groups : List (Nat × List Char)} (taken : Takes y before text after groups) :
      Takes (.alt gate x y) before text after groups
  | run {greedy : Bool} {chars : CharSet} {before text after : List Char}
      (mem : ∀ c ∈ text, chars.contains c = true) : Takes (.run greedy chars) before text after []
  | leave {gate : Option Nat} {greedy : Bool} {x : Node} {before after : List Char} :
      Takes (.star gate greedy x) before [] after []
  | again {gate : Option Nat} {greedy : Bool} {x : Node} {before first second after : List Char}
      {groups more : List (Nat × List Char)} (head : Takes x before first (second ++ after) groups)
      (tail : Takes (.star gate greedy x) (first.reverse ++ before) second after more) :
      Takes (.star gate greedy x) before (first ++ second) after (more ++ groups)
  | plus {gate : Option Nat} {greedy : Bool} {x : Node} {before first second after : List Char}
      {groups more : List (Nat × List Char)} (head : Takes x before first (second ++ after) groups)
      (tail : Takes (.star gate greedy x) (first.reverse ++ before) second after more) :
      Takes (.plus gate greedy x) before (first ++ second) after (more ++ groups)
  | group {index : Nat} {x : Node} {before text after : List Char}
      {groups : List (Nat × List Char)} (taken : Takes x before text after groups) :
      Takes (.group index x) before text after ((index, text) :: groups)

/-- What lies between two spots: the text that has been taken and the groups recorded. -/
structure Spot.Passes (s : Spot) (text : List Char) (recorded : List (Nat × List Char))
    (t : Spot) : Prop where
  after_eq : s.after = text ++ t.after
  before_eq : t.before = text.reverse ++ s.before
  taken_eq : t.taken = s.taken + text.length
  groups_eq : t.groups = recorded ++ s.groups

namespace Spot.Passes

variable {s t u : Spot} {text more : List Char} {recorded others : List (Nat × List Char)}

theorem refl (s : Spot) : s.Passes [] [] s := ⟨rfl, rfl, rfl, rfl⟩

theorem trans (h : s.Passes text recorded t) (hnext : t.Passes more others u) :
    s.Passes (text ++ more) (others ++ recorded) u where
  after_eq := by rw [h.after_eq, hnext.after_eq, List.append_assoc]
  before_eq := by rw [hnext.before_eq, h.before_eq, List.reverse_append, List.append_assoc]
  taken_eq := by rw [hnext.taken_eq, h.taken_eq, List.length_append, Nat.add_assoc]
  groups_eq := by rw [hnext.groups_eq, h.groups_eq, List.append_assoc]

theorem step {c : Char} {rest : List Char} (h : s.after = c :: rest) :
    s.Passes [c] [] (s.step c rest) := ⟨h, rfl, rfl, rfl⟩

theorem pass (gate : Option Nat) (s : Spot) : s.Passes [] [] (s.pass gate) := by
  cases gate <;> exact ⟨rfl, rfl, rfl, rfl⟩

theorem record (index : Nat) (h : s.Passes text recorded t) :
    s.Passes text ((index, text) :: recorded) (Spot.record index s t) := by
  refine ⟨h.after_eq, h.before_eq, h.taken_eq, ?_⟩
  have htext : s.after.take (t.taken - s.taken) = text := by
    rw [h.taken_eq, h.after_eq, Nat.add_sub_cancel_left, List.take_left]
  simp [Spot.record, htext, h.groups_eq]

end Spot.Passes

namespace Node

/-- Whether a node takes a text that leads from a spot to another. -/
def Leads (x : Node) (s t : Spot) : Prop :=
  ∃ text recorded, s.Passes text recorded t ∧ x.Takes s.before text t.after recorded

theorem leads_of_mem_runEnds {greedy : Bool} {chars : CharSet} {s t : Spot} {text : List Char}
    (hs : s.after = text) (h : t ∈ runEnds chars s text) : (run greedy chars).Leads s t := by
  induction text generalizing s with
  | nil =>
      obtain rfl := List.mem_singleton.mp h
      exact ⟨[], [], .refl _, .run (by simp)⟩
  | cons c text ih =>
      rw [runEnds] at h
      by_cases hc : chars.contains c = true
      · rw [if_pos hc] at h
        rcases List.mem_cons.mp h with rfl | h
        · exact ⟨[], [], .refl _, .run (by simp)⟩
        · obtain ⟨more, recorded, hpasses, htakes⟩ := ih rfl h
          cases htakes with
          | run mem =>
              refine ⟨c :: more, [], (Spot.Passes.step hs).trans hpasses, .run ?_⟩
              exact List.forall_mem_cons.mpr ⟨hc, mem⟩
      · rw [if_neg hc] at h
        obtain rfl := List.mem_singleton.mp h
        exact ⟨[], [], .refl _, .run (by simp)⟩

end Node

def Errand.spot : Errand → Spot
  | arrive s => s
  | leave s => s

/-- What holds of the spots of all errands and is kept by the body of a loop holds of its ends. -/
theorem of_mem_loopEnds {body : Spot → List Spot} {gate : Option Nat} {greedy : Bool}
    {barred : Option Nat} {P : Spot → Prop} (hbody : ∀ s, P s → ∀ t ∈ body s, P t)
    (hpass : ∀ s, P s → P (s.pass gate)) {fuel : Nat} {seen : List Nat} {errands : List Errand}
    (herrands : ∀ errand ∈ errands, P errand.spot) {t : Spot}
    (h : t ∈ loopEnds body gate greedy barred fuel seen errands) : P t := by
  induction fuel generalizing seen errands with
  | zero => simp [loopEnds] at h
  | succ fuel ih =>
      rcases errands with _ | ⟨s | s, rest⟩
      · simp [loopEnds] at h
      · obtain ⟨hs, hrest⟩ := List.forall_mem_cons.mp herrands
        rw [loopEnds] at h
        split at h
        · exact ih hrest h
        · refine ih ?_ h
          intro errand herrand
          have hagain : ∀ e ∈ (if barred == some (s.pass gate).taken then []
              else (body (s.pass gate)).map Errand.arrive), P e.spot := by
            intro e he
            split at he
            · simp at he
            · obtain ⟨u, hu, rfl⟩ := List.mem_map.mp he
              exact hbody _ (hpass s hs) u hu
          have hmem : errand ∈ (if barred == some (s.pass gate).taken then []
              else (body (s.pass gate)).map Errand.arrive) ∨
                errand = .leave (s.pass gate) ∨ errand ∈ rest := by
            cases greedy
            · simpa [or_left_comm, or_assoc] using herrand
            · simpa using herrand
          rcases hmem with he | rfl | he
          · exact hagain errand he
          · exact hpass s hs
          · exact hrest errand he
      · obtain ⟨hs, hrest⟩ := List.forall_mem_cons.mp herrands
        rw [loopEnds] at h
        rcases List.mem_cons.mp h with rfl | h
        · exact hs
        · exact ih hrest h

namespace Node

theorem Takes.star_append {gate : Option Nat} {greedy : Bool} {x : Node}
    {before first second after : List Char} {groups more : List (Nat × List Char)}
    (h : Takes (.star gate greedy x) before first (second ++ after) groups)
    (hnext : Takes x (first.reverse ++ before) second after more) :
    Takes (.star gate greedy x) before (first ++ second) after (more ++ groups) := by
  generalize hrest : second ++ after = rest at h
  generalize hloop : Node.star gate greedy x = loop at h ⊢
  induction h with
  | leave =>
      cases hloop
      have hone : Takes (.star gate greedy x) _ (second ++ []) after ([] ++ more) :=
        .again hnext .leave
      simpa using hone
  | @again _ _ _ before first third after groups others head tail _ ih =>
      cases hloop
      subst hrest
      rw [List.reverse_append, List.append_assoc] at hnext
      rw [← List.append_assoc] at head
      have hall := Takes.again head (ih hnext rfl rfl)
      rwa [← List.append_assoc, List.append_assoc more] at hall
  | _ => cases hloop

namespace Leads

variable {x y z : Node} {s t u : Spot} {gate : Option Nat} {greedy : Bool}

theorem of_pass (h : x.Leads (s.pass gate) t) : x.Leads s t := by
  obtain ⟨text, recorded, hpasses, htakes⟩ := h
  refine ⟨text, recorded, ?_, ?_⟩
  · simpa using (Spot.Passes.pass gate s).trans hpasses
  · cases gate <;> exact htakes

theorem pass (h : x.Leads s t) : x.Leads s (t.pass gate) := by
  obtain ⟨text, recorded, hpasses, htakes⟩ := h
  refine ⟨text, recorded, ?_, ?_⟩
  · simpa using hpasses.trans (Spot.Passes.pass gate t)
  · cases gate <;> exact htakes

/-- Two texts that are taken one behind the other lead from the first spot to the last. -/
theorem join
    (hjoin : ∀ {first second after groups more}, x.Takes s.before first (second ++ after) groups →
      y.Takes (first.reverse ++ s.before) second after more →
        z.Takes s.before (first ++ second) after (more ++ groups))
    (h : x.Leads s t) (hnext : y.Leads t u) : z.Leads s u := by
  obtain ⟨first, groups, hfirst, hx⟩ := h
  obtain ⟨second, more, hsecond, hy⟩ := hnext
  rw [hsecond.after_eq] at hx
  rw [hfirst.before_eq] at hy
  exact ⟨first ++ second, more ++ groups, hfirst.trans hsecond, hjoin hx hy⟩

theorem cat (h : x.Leads s t) (hnext : y.Leads t u) : (Node.cat x y).Leads s u :=
  h.join .cat hnext

theorem again (h : (star gate greedy x).Leads s t) (hnext : x.Leads t u) :
    (star gate greedy x).Leads s u :=
  h.join Takes.star_append hnext

theorem leave (s : Spot) : (star gate greedy x).Leads s s := ⟨[], [], .refl s, .leave⟩

/-- A loop that needs a first round is that round and a loop that needs none. -/
theorem plus (h : x.Leads s t) (hnext : (star gate greedy x).Leads t u) :
    (Node.plus gate greedy x).Leads s u :=
  h.join .plus hnext

theorem preferred (h : x.Leads s t) : (alt gate x y).Leads s t := by
  obtain ⟨text, groups, hpasses, htakes⟩ := h
  exact ⟨text, groups, hpasses, .preferred htakes⟩

theorem other (h : y.Leads s t) : (alt gate x y).Leads s t := by
  obtain ⟨text, groups, hpasses, htakes⟩ := h
  exact ⟨text, groups, hpasses, .other htakes⟩

theorem record (index : Nat) (h : x.Leads s t) :
    (group index x).Leads s (Spot.record index s t) := by
  obtain ⟨text, groups, hpasses, htakes⟩ := h
  exact ⟨text, _, hpasses.record index, .group htakes⟩

end Leads

theorem leads_of_mem_ends (x : Node) {s t : Spot} (h : t ∈ x.ends s) : x.Leads s t := by
  induction x generalizing s t with
  | empty =>
      obtain rfl := List.mem_singleton.mp h
      exact ⟨[], [], .refl _, .empty⟩
  | set chars =>
      rw [ends] at h
      cases hs : s.after with
      | nil => simp [hs] at h
      | cons c rest =>
          simp only [hs] at h
          split at h
          · next hc =>
            obtain rfl := List.mem_singleton.mp h
            exact ⟨[c], [], .step hs, .set hc⟩
          · simp at h
  | look l =>
      rw [ends] at h
      split at h
      · next hl =>
        obtain rfl := List.mem_singleton.mp h
        exact ⟨[], [], .refl _, .look hl⟩
      · simp at h
  | cat x y ihx ihy =>
      obtain ⟨u, hu, ht⟩ := List.mem_flatMap.mp (mem_of_mem_firstArrivals h)
      exact (ihx hu).cat (ihy ht)
  | alt gate x y ihx ihy =>
      rw [ends] at h
      split at h
      · rcases List.mem_append.mp (mem_of_mem_firstArrivals h) with h | h
        · exact (ihx h).of_pass.preferred
        · exact (ihy h).of_pass.other
      · simp at h
  | run greedy chars =>
      refine leads_of_mem_runEnds rfl ?_
      rw [ends] at h
      split at h
      · exact List.mem_reverse.mp h
      · exact h
  | star gate greedy x ih =>
      refine of_mem_loopEnds (fun u hu v hv => hu.again (ih hv)) (fun u hu => hu.pass) ?_ h
      intro errand herrand
      obtain rfl := List.mem_singleton.mp herrand
      exact .leave s
  | plus gate greedy x ih =>
      -- What is kept is a first round, and a loop behind it.
      have hkept : ∃ u, x.Leads s u ∧ (star gate greedy x).Leads u t := by
        refine of_mem_loopEnds (P := fun v => ∃ u, x.Leads s u ∧ (star gate greedy x).Leads u v)
          ?_ ?_ ?_ h
        · rintro v ⟨u, hu, hv⟩ w hw
          exact ⟨u, hu, hv.again (ih hw)⟩
        · rintro v ⟨u, hu, hv⟩
          exact ⟨u, hu, hv.pass⟩
        · intro errand herrand
          obtain ⟨u, hu, rfl⟩ := List.mem_map.mp herrand
          exact ⟨u, ih hu, .leave u⟩
      obtain ⟨u, hu, ht⟩ := hkept
      exact hu.plus ht
  | group index x ih =>
      obtain ⟨u, hu, rfl⟩ := List.mem_map.mp h
      exact (ih hu).record index

/-- A match takes its text, and its groups are those that have been recorded. -/
theorem exists_takes_of_matchAt? {x : Node} {before after : List Char} {m : Match}
    (h : x.matchAt? before after = some m) :
    ∃ text rest recorded, after = text ++ rest ∧ m = ⟨text.length, recorded ++ [(0, text)]⟩ ∧
      x.Takes before text rest recorded := by
  obtain ⟨s, hs, rfl⟩ := Option.map_eq_some_iff.mp h
  obtain ⟨text, recorded, hpasses, htakes⟩ := x.leads_of_mem_ends (List.mem_of_head? hs)
  refine ⟨text, s.after, recorded, hpasses.after_eq, ?_, htakes⟩
  have hafter : after = text ++ s.after := hpasses.after_eq
  have hgroups : s.groups = recorded ++ [] := hpasses.groups_eq
  rw [hpasses.taken_eq, hgroups, hafter]
  simp [Spot.start]

/-- Whether a node repeats single characters only, and may pass every choice again. -/
def isPlain : Node → Bool
  | empty => true
  | set _ => true
  | look _ => true
  | cat x y => x.isPlain && y.isPlain
  | alt gate x y => gate.isNone && x.isPlain && y.isPlain
  | run _ _ => true
  | star _ _ _ => false
  | plus _ _ _ => false
  | group _ x => x.isPlain

end Node

theorem exists_mem_firstArrivals {seen : List Nat} {spots : List Spot} {s : Spot}
    (h : s ∈ spots) (hseen : s.taken ∉ seen) :
    ∃ t ∈ firstArrivals seen spots, t.taken = s.taken := by
  induction spots generalizing seen with
  | nil => cases h
  | cons first spots ih =>
      rw [firstArrivals]
      by_cases hfirst : first.taken ∈ seen
      · rw [if_pos (List.contains_iff_mem.mpr hfirst)]
        rcases List.mem_cons.mp h with rfl | h
        · exact absurd hfirst hseen
        · exact ih h hseen
      · rw [if_neg (mt List.contains_iff_mem.mp hfirst)]
        by_cases hsame : s.taken = first.taken
        · exact ⟨first, List.mem_cons_self, hsame.symm⟩
        · have hs : s ∈ spots := (List.mem_cons.mp h).resolve_left fun heq => hsame (heq ▸ rfl)
          have hnot : s.taken ∉ first.taken :: seen := by simp [hsame, hseen]
          obtain ⟨t, ht, htaken⟩ := ih hs hnot
          exact ⟨t, List.mem_cons_of_mem first ht, htaken⟩

theorem exists_mem_runEnds {chars : CharSet} {text : List Char}
    (h : ∀ c ∈ text, chars.contains c = true) (after : List Char) (s : Spot) :
    ∃ t ∈ runEnds chars s (text ++ after), t.taken = s.taken + text.length := by
  induction text generalizing s with
  | nil =>
      refine ⟨s, ?_, rfl⟩
      rcases after with _ | ⟨c, after⟩
      · exact List.mem_singleton_self s
      · rw [List.nil_append, runEnds]
        split <;> simp
  | cons c text ih =>
      obtain ⟨hc, htext⟩ := List.forall_mem_cons.mp h
      obtain ⟨t, ht, htaken⟩ := ih htext (s.step c (text ++ after))
      refine ⟨t, ?_, ?_⟩
      · rw [List.cons_append, runEnds, if_pos hc]
        exact List.mem_cons_of_mem s ht
      · simp only [htaken, Spot.step, List.length_cons]
        omega

/-- Where an end stands follows from the number of characters that have been taken. -/
theorem Spot.Passes.eq_of_taken {s t : Spot} {text first rest : List Char}
    {recorded : List (Nat × List Char)} (h : s.Passes text recorded t)
    (hafter : s.after = first ++ rest) (htaken : t.taken = s.taken + first.length) :
    t.after = rest ∧ t.before = first.reverse ++ s.before := by
  have hlength : text.length = first.length := by
    have hboth := h.taken_eq.symm.trans htaken
    omega
  obtain ⟨rfl, rfl⟩ := List.append_inj (h.after_eq.symm.trans hafter) hlength
  exact ⟨rfl, h.before_eq⟩

namespace Node

/-- Every text that a plain node takes leads to one of its ends. -/
theorem Takes.exists_mem_ends {x : Node} {before text after : List Char}
    {recorded : List (Nat × List Char)} (h : x.Takes before text after recorded)
    (hplain : x.isPlain = true) {s : Spot} (hbefore : s.before = before)
    (hafter : s.after = text ++ after) : ∃ t ∈ x.ends s, t.taken = s.taken + text.length := by
  induction h generalizing s with
  | empty => exact ⟨s, List.mem_singleton_self s, rfl⟩
  | @set chars before after c mem =>
      refine ⟨s.step c after, ?_, rfl⟩
      simp [ends, hafter, mem]
  | look holds =>
      subst hbefore
      rw [List.nil_append] at hafter
      exact ⟨s, by simp [ends, hafter, holds], rfl⟩
  | @cat x y before first second after groups more head tail ihx ihy =>
      simp only [isPlain, Bool.and_eq_true] at hplain
      rw [List.append_assoc] at hafter
      obtain ⟨u, hu, hutaken⟩ := ihx hplain.1 hbefore hafter
      obtain ⟨_, _, hpasses, -⟩ := leads_of_mem_ends x hu
      obtain ⟨huafter, hubefore⟩ := hpasses.eq_of_taken hafter hutaken
      obtain ⟨t, ht, httaken⟩ := ihy hplain.2 (hubefore.trans (by rw [hbefore])) huafter
      have hmem : t ∈ (x.ends s).flatMap y.ends := List.mem_flatMap.mpr ⟨u, hu, ht⟩
      obtain ⟨v, hv, hvtaken⟩ := exists_mem_firstArrivals hmem (List.not_mem_nil)
      refine ⟨v, hv, ?_⟩
      rw [hvtaken, httaken, hutaken, List.length_append, Nat.add_assoc]
  | @preferred gate x y before text after groups taken ih =>
      simp only [isPlain, Bool.and_eq_true, Option.isNone_iff_eq_none] at hplain
      obtain ⟨⟨rfl, hx⟩, -⟩ := hplain
      obtain ⟨t, ht, httaken⟩ := ih hx hbefore hafter
      obtain ⟨v, hv, hvtaken⟩ := exists_mem_firstArrivals
        (List.mem_append_left (y.ends s) ht) (List.not_mem_nil)
      exact ⟨v, hv, hvtaken.trans httaken⟩
  | @other gate x y before text after groups taken ih =>
      simp only [isPlain, Bool.and_eq_true, Option.isNone_iff_eq_none] at hplain
      obtain ⟨⟨rfl, -⟩, hy⟩ := hplain
      obtain ⟨t, ht, httaken⟩ := ih hy hbefore hafter
      obtain ⟨v, hv, hvtaken⟩ := exists_mem_firstArrivals
        (List.mem_append_right (x.ends s) ht) (List.not_mem_nil)
      exact ⟨v, hv, hvtaken.trans httaken⟩
  | @run greedy chars before text after mem =>
      obtain ⟨t, ht, httaken⟩ := exists_mem_runEnds mem after s
      refine ⟨t, ?_, httaken⟩
      rw [ends, hafter]
      split
      · exact List.mem_reverse.mpr ht
      · exact ht
  | leave | again | plus => cases hplain
  | @group index x before text after groups taken ih =>
      obtain ⟨t, ht, httaken⟩ := ih hplain hbefore hafter
      exact ⟨Spot.record index s t, List.mem_map_of_mem ht, httaken⟩

/-- A plain node has a match exactly where it takes a text. -/
theorem matchAt?_isSome_iff {x : Node} (hplain : x.isPlain = true) (before after : List Char) :
    (x.matchAt? before after).isSome = true ↔
      ∃ text rest recorded, after = text ++ rest ∧ x.Takes before text rest recorded := by
  constructor
  · intro h
    obtain ⟨m, hm⟩ := Option.isSome_iff_exists.mp h
    obtain ⟨text, rest, recorded, hafter, -, htakes⟩ := exists_takes_of_matchAt? hm
    exact ⟨text, rest, recorded, hafter, htakes⟩
  · rintro ⟨text, rest, recorded, rfl, htakes⟩
    obtain ⟨t, ht, -⟩ :=
      htakes.exists_mem_ends hplain (s := Spot.start before (text ++ rest)) rfl rfl
    rw [matchAt?, Option.isSome_map, List.isSome_head?]
    exact List.ne_nil_of_mem ht

end Node

end ClassSkeleton.Pattern
