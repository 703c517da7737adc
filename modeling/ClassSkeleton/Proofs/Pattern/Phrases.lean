import ClassSkeleton.Pattern.Template
import ClassSkeleton.Proofs.Pattern.Branching
import ClassSkeleton.Proofs.Pattern.Heaviest
import ClassSkeleton.Proofs.Pattern.Scanning

namespace ClassSkeleton.Pattern

/-!
# Phrases

A branch of a node takes one piece after the other. A template that writes a text, and perhaps the
last group behind it, makes a phrase of the branch: what is taken, and what is put in its place. A
node with a guard takes the character in front as well and puts it back.
-/

deriving instance DecidableEq for Unicode.Runs, Unicode.Property, CharSet

inductive Piece where
  | one (s : CharSet)
  | many (s : CharSet)
  | look (l : Look)
  deriving DecidableEq

theorem Look.holds_head (l : Look) (before after : List Char) :
    l.holds before.head?.toList after = l.holds before after := by
  cases l <;> cases before <;> rfl

/-- What the pieces take from the start of a text, and the text left over. -/
def take? : List Piece → Option Char → List Char → Option (List Char × List Char)
  | [], _, text => some ([], text)
  | .one s :: pieces, _, text =>
    match text with
    | [] => none
    | c :: rest =>
      if s.contains c then (take? pieces (some c) rest).map fun found => (c :: found.1, found.2)
      else none
  | .many s :: pieces, prev, text =>
    (take? pieces ((text.takeWhile s.contains).getLast?.or prev)
      (text.dropWhile s.contains)).map fun found => (text.takeWhile s.contains ++ found.1, found.2)
  | .look l :: pieces, prev, text =>
    if l.holds prev.toList text then take? pieces prev text else none

section Take

variable {pieces others : List Piece} {prev : Option Char} {text taken rest : List Char}

theorem take?_eq_append (h : take? pieces prev text = some (taken, rest)) :
    text = taken ++ rest := by
  fun_induction take? pieces prev text generalizing taken with
  | case1 prev text =>
      obtain ⟨rfl, rfl⟩ := Prod.mk.inj (Option.some.inj h)
      rfl
  | case2 => cases h
  | case3 s pieces prev c text hc ih =>
      obtain ⟨found, hfound, heq⟩ := Option.map_eq_some_iff.mp h
      obtain ⟨rfl, rfl⟩ := Prod.mk.inj heq
      rw [List.cons_append, ← ih hfound]
  | case4 => cases h
  | case5 s pieces prev text ih =>
      obtain ⟨found, hfound, heq⟩ := Option.map_eq_some_iff.mp h
      obtain ⟨rfl, rfl⟩ := Prod.mk.inj heq
      rw [List.append_assoc, ← ih hfound, List.takeWhile_append_dropWhile]
  | case6 l pieces prev text hl ih => exact ih h
  | case7 => cases h

theorem take?_append (pieces others : List Piece) (prev : Option Char) (text : List Char) :
    take? (pieces ++ others) prev text = (take? pieces prev text).bind fun found =>
      (take? others (found.1.getLast?.or prev) found.2).map fun more =>
        (found.1 ++ more.1, more.2) := by
  fun_induction take? pieces prev text with
  | case1 prev text => simp
  | case2 => rfl
  | case3 s pieces prev c text hc ih =>
      simp only [List.cons_append, take?, hc, if_true, ih, Option.bind_map, Option.map_bind]
      congr 1
      funext found
      simp [Function.comp_def, getLast?_cons_or]
  | case4 s pieces prev c text hc => simp [take?, hc]
  | case5 s pieces prev text ih =>
      simp only [List.cons_append, take?, ih, Option.bind_map, Option.map_bind]
      congr 1
      funext found
      simp [Function.comp_def, List.getLast?_append, Option.or_assoc]
  | case6 l pieces prev text hl ih => simp only [List.cons_append, take?, hl, if_true, ih]
  | case7 l pieces prev text hl => simp [take?, hl]

end Take

namespace Spot.Passes

variable {s t : Spot} {text : List Char} {recorded : List (Nat × List Char)}

theorem head?_before (h : s.Passes text recorded t) :
    t.before.head? = text.getLast?.or s.before.head? := by
  rw [h.before_eq, List.head?_append, List.head?_reverse]

theorem take_after (h : s.Passes text recorded t) :
    s.after.take (t.taken - s.taken) = text := by
  rw [h.taken_eq, h.after_eq, Nat.add_sub_cancel_left, List.take_left]

end Spot.Passes

namespace Node

/-- The pieces of a branch. What is no branch has a piece that takes nothing. -/
def spell : Node → List Piece
  | empty => []
  | set s => [.one s]
  | look l => [.look l]
  | cat x y => x.spell ++ y.spell
  | run _ s => [.many s]
  | group _ x => x.spell
  | _ => [.one .none]

theorem leads_of_end? {x : Node} {s t : Spot} (h : t ∈ x.end? s) : x.Leads s t := by
  induction x generalizing s t with
  | empty =>
      obtain rfl := Option.some.inj h
      exact ⟨[], [], .refl _, .empty⟩
  | set chars =>
      rw [end?] at h
      cases hs : s.after with
      | nil => simp [hs] at h
      | cons c rest =>
          simp only [hs] at h
          split at h
          · next hc =>
            obtain rfl := Option.some.inj h
            exact ⟨[c], [], .step hs, .set hc⟩
          · cases h
  | look l =>
      rw [end?] at h
      split at h
      · next hl =>
        obtain rfl := Option.some.inj h
        exact ⟨[], [], .refl _, .look hl⟩
      · cases h
  | cat x y ihx ihy =>
      obtain ⟨u, hu, ht⟩ := Option.bind_eq_some_iff.mp h
      exact (ihx hu).cat (ihy ht)
  | run greedy chars =>
      obtain rfl := Option.some.inj h
      exact ⟨_, [], .munch chars s, .run fun c hc => List.all_eq_true.mp List.all_takeWhile c hc⟩
  | alt | star | plus => cases h
  | group index x ih =>
      obtain ⟨u, hu, rfl⟩ := Option.map_eq_some_iff.mp h
      exact (ih hu).record index

/-- What a branch takes is what its pieces take. -/
theorem take?_spell (x : Node) (s : Spot) : take? x.spell s.before.head? s.after =
    (x.end? s).map fun t => (s.after.take (t.taken - s.taken), t.after) := by
  induction x generalizing s with
  | empty => simp [spell, take?, end?]
  | set chars =>
      cases hs : s.after with
      | nil => simp [spell, take?, end?, hs]
      | cons c rest =>
          cases hc : chars.contains c <;> simp [spell, take?, end?, hs, hc, Spot.step]
  | look l =>
      rw [spell, take?, Look.holds_head, end?]
      cases l.holds s.before s.after <;> simp [take?]
  | cat x y ihx ihy =>
      rw [spell, take?_append, ihx, end?]
      cases ht : x.end? s with
      | none => rfl
      | some t =>
          obtain ⟨first, groups, hfirst, -⟩ := leads_of_end? ht
          rw [Option.map_some, Option.bind_some, Option.bind_some, hfirst.take_after,
            ← hfirst.head?_before, ihy, Option.map_map]
          cases hu : y.end? t with
          | none => rfl
          | some u =>
              obtain ⟨second, more, hsecond, -⟩ := leads_of_end? hu
              simp [hsecond.take_after, (hfirst.trans hsecond).take_after]
  | run greedy chars =>
      have hmunch := Spot.Passes.munch chars s
      simp [spell, take?, end?, hmunch.take_after, Spot.munch_after]
  | alt | star | plus => cases s.after <;> simp [spell, take?, end?, CharSet.contains]
  | group index x ih =>
      rw [spell, ih, end?, Option.map_map]
      rfl

/-- The pieces in front of a group and those in it, for a branch that ends with the group. -/
def aroundLast? (index : Nat) : Node → Option (List Piece × List Piece)
  | group other x => if other = index then some ([], x.spell) else none
  | cat x (look l) => (x.aroundLast? index).map fun sides => (sides.1, sides.2 ++ [.look l])
  | cat x y => (y.aroundLast? index).map fun sides => (x.spell ++ sides.1, sides.2)
  | _ => none

theorem take?_spell_of_end? {x : Node} {s t : Spot} (h : x.end? s = some t) :
    ∃ text recorded, s.Passes text recorded t ∧
      take? x.spell s.before.head? s.after = some (text, t.after) := by
  obtain ⟨text, recorded, hpasses, -⟩ := leads_of_end? h
  refine ⟨text, recorded, hpasses, ?_⟩
  rw [take?_spell, h, Option.map_some, hpasses.take_after]

theorem spell_eq_of_aroundLast? {index : Nat} {x : Node} {sides : List Piece × List Piece}
    (h : x.aroundLast? index = some sides) : x.spell = sides.1 ++ sides.2 := by
  fun_induction aroundLast? index x generalizing sides with
  | case1 x =>
      obtain rfl := Option.some.inj h
      rfl
  | case2 => cases h
  | case3 x l ih =>
      obtain ⟨found, hfound, rfl⟩ := Option.map_eq_some_iff.mp h
      rw [spell, ih hfound, spell, List.append_assoc]
  | case4 x y _ ih =>
      obtain ⟨found, hfound, rfl⟩ := Option.map_eq_some_iff.mp h
      rw [spell, ih hfound, List.append_assoc]
  | case5 => cases h

/-- The last group of a branch holds what its pieces take. -/
theorem take?_of_aroundLast? {index : Nat} {x : Node} {sides : List Piece × List Piece}
    (h : x.aroundLast? index = some sides) {s t : Spot} (hend : x.end? s = some t) :
    ∃ first second, take? sides.1 s.before.head? s.after = some (first, second ++ t.after) ∧
      take? sides.2 (first.getLast?.or s.before.head?) (second ++ t.after) =
        some (second, t.after) ∧ t.groups.lookup index = some second := by
  fun_induction aroundLast? index x generalizing sides s t with
  | case1 x =>
      obtain rfl := Option.some.inj h
      obtain ⟨u, hu, rfl⟩ := Option.map_eq_some_iff.mp hend
      obtain ⟨text, recorded, hpasses, htake⟩ := take?_spell_of_end? hu
      have hrecord := hpasses.record index
      refine ⟨[], text, ?_, ?_, ?_⟩
      · rw [take?, hpasses.after_eq]
        rfl
      · simpa [hpasses.after_eq, Spot.record] using htake
      · rw [hrecord.groups_eq]
        simp
  | case2 => cases h
  | case3 x l ih =>
      obtain ⟨found, hfound, rfl⟩ := Option.map_eq_some_iff.mp h
      obtain ⟨u, hu, hlook⟩ := Option.bind_eq_some_iff.mp hend
      obtain ⟨first, second, hfirst, hsecond, hlookup⟩ := ih hfound hu
      rw [end?] at hlook
      split at hlook
      · next hholds =>
          obtain rfl := Option.some.inj hlook
          refine ⟨first, second, hfirst, ?_, hlookup⟩
          obtain ⟨text, recorded, hpasses, -⟩ := leads_of_end? hu
          have htext : text = first ++ second := by
            have hparts := hpasses.after_eq.symm.trans (take?_eq_append hfirst)
            rw [← List.append_assoc] at hparts
            exact List.append_cancel_right hparts
          have hbefore := hpasses.head?_before
          rw [htext, List.getLast?_append, Option.or_assoc] at hbefore
          rw [take?_append, hsecond, Option.bind_some, take?, ← hbefore, Look.holds_head,
            if_pos hholds]
          simp [take?]
      · cases hlook
  | case4 x y _ ih =>
      obtain ⟨found, hfound, rfl⟩ := Option.map_eq_some_iff.mp h
      obtain ⟨u, hu, hy⟩ := Option.bind_eq_some_iff.mp hend
      obtain ⟨first, second, hfirst, hsecond, hlookup⟩ := ih hfound hy
      obtain ⟨text, recorded, hpasses, htake⟩ := take?_spell_of_end? hu
      rw [hpasses.head?_before] at hfirst hsecond
      refine ⟨text ++ first, second, ?_, ?_, hlookup⟩
      · rw [take?_append, htake, Option.bind_some, hfirst]
        rfl
      · rwa [List.getLast?_append, Option.or_assoc]
  | case5 => cases h

end Node

/-- What is taken, and what is put there: a text, and behind it what the last pieces have taken. -/
structure Phrase where
  front : List Piece
  lit : List Char
  back : List Piece
  deriving DecidableEq

namespace Phrase

def at? (ph : Phrase) : Spotter := fun prev text =>
  (take? ph.front prev text).bind fun first =>
    (take? ph.back (first.1.getLast?.or prev) first.2).map fun second =>
      (first.1 ++ second.1, ph.lit ++ second.1)

/-- The text of a template, and the group that it writes last. -/
def written? : List Part → Option (List Char × Option Nat)
  | [] => some ([], none)
  | [.numbered index] => some ([], some index)
  | .char c :: parts => (written? parts).map fun found => (c :: found.1, found.2)
  | _ => none

theorem expand_of_written? {parts : List Part} {lit : List Char} {last : Option Nat}
    (h : written? parts = some (lit, last)) (names : List (String × Nat)) (m : Match) :
    Template.expand names parts m = lit ++ last.elim [] fun index => (m.group? index).getD [] := by
  fun_induction written? parts generalizing lit with
  | case1 =>
      obtain ⟨rfl, rfl⟩ := Prod.mk.inj (Option.some.inj h)
      rfl
  | case2 index =>
      obtain ⟨rfl, rfl⟩ := Prod.mk.inj (Option.some.inj h)
      simp [Template.expand, Template.expandPart]
  | case3 c parts ih =>
      obtain ⟨found, hfound, heq⟩ := Option.map_eq_some_iff.mp h
      obtain ⟨rfl, rfl⟩ := Prod.mk.inj heq
      rw [Template.expand, List.flatMap_cons, ← Template.expand, ih hfound]
      rfl
  | case4 => cases h

def ofBranch? (parts : List Part) (x : Node) : Option Phrase :=
  match written? parts with
  | some (lit, none) => some ⟨x.spell, lit, []⟩
  | some (lit, some index) => (x.aroundLast? index).map fun sides => ⟨sides.1, lit, sides.2⟩
  | none => none

/-- The phrase of a branch takes what the branch takes and puts there what the template writes. -/
theorem at?_of_ofBranch? {parts : List Part} {x : Node} {ph : Phrase}
    (h : ofBranch? parts x = some ph) (names : List (String × Nat)) {found : Spot → Match}
    (hfound : ∀ t, ∃ more, (found t).groups = t.groups ++ more) (s : Spot) :
    (x.end? s).map (fun t => (t.taken - s.taken, Template.expand names parts (found t))) =
      (ph.at? s.before.head? s.after).map fun spotted => (spotted.1.length, spotted.2) := by
  unfold ofBranch? at h
  split at h
  · next lit hwritten =>
      obtain rfl := Option.some.inj h
      simp only [at?, take?, Node.take?_spell, expand_of_written? hwritten]
      cases hend : x.end? s with
      | none => rfl
      | some t =>
          obtain ⟨text, recorded, hpasses, -⟩ := Node.leads_of_end? hend
          simp [hpasses.taken_eq, hpasses.after_eq]
  · next lit index hwritten =>
      obtain ⟨sides, hsides, rfl⟩ := Option.map_eq_some_iff.mp h
      have hspell := Node.spell_eq_of_aroundLast? hsides
      have htake := Node.take?_spell x s
      rw [hspell, take?_append] at htake
      simp only [at?, expand_of_written? hwritten, Option.elim_some]
      cases hend : x.end? s with
      | none =>
          rw [hend, Option.map_none, Option.bind_eq_none_iff] at htake
          cases hfront : take? sides.1 s.before.head? s.after with
          | none => rfl
          | some first =>
              have hnone := htake first hfront
              rw [Option.map_eq_none_iff] at hnone
              simp [hnone]
      | some t =>
          obtain ⟨first, second, hfirst, hsecond, hlookup⟩ := Node.take?_of_aroundLast? hsides hend
          obtain ⟨text, recorded, hpasses, -⟩ := Node.leads_of_end? hend
          obtain ⟨more, hmore⟩ := hfound t
          have hlength : text.length = first.length + second.length := by
            have hparts := congrArg List.length
              (hpasses.after_eq.symm.trans (take?_eq_append hfirst))
            simp only [List.length_append] at hparts
            omega
          have hgroup : (found t).group? index = some second := by
            rw [Match.group?, hmore, List.lookup_append, hlookup]
            rfl
          simp [hfirst, hsecond, hgroup, hpasses.taken_eq, hlength]
  · cases h

end Phrase

/-- The first phrase that takes anything. -/
def spotAny (phrases : List Phrase) : Spotter := fun prev text =>
  phrases.findSome? fun ph => ph.at? prev text

theorem findSome?_congr {α β : Type} {f g : α → Option β} {xs : List α}
    (h : ∀ x ∈ xs, f x = g x) : xs.findSome? f = xs.findSome? g := by
  rw [← List.head?_filterMap, List.filterMap_congr h, List.head?_filterMap]

/-- A spotter that looks at the character in front, if there is one. -/
def behind (guard : CharSet) (at? : Spotter) : Spotter := fun prev text =>
  if prev.all guard.contains then at? prev text else none

namespace Node

def phrases (parts : List Part) (x : Node) : List Phrase :=
  x.branches.filterMap (Phrase.ofBranch? parts)

/-- Whether every branch of a node is a phrase and the matcher goes by the branches. -/
def isPhrased (parts : List Part) (x : Node) : Bool :=
  x.branches.all fun p => p.isKeen none && (Phrase.ofBranch? parts p).isSome

variable {x : Node} {parts : List Part} {names : List (String × Nat)}

theorem ofBranch?_of_isPhrased (h : x.isPhrased parts = true) :
    ∀ p ∈ x.branches, ∃ ph, Phrase.ofBranch? parts p = some ph := by
  intro p hp
  rw [isPhrased, List.all_eq_true] at h
  exact Option.isSome_iff_exists.mp ((Bool.and_eq_true _ _).mp (h p hp)).2

theorem isKeen_of_isPhrased (h : x.isPhrased parts = true) :
    (x.branches.all fun p => p.isKeen none) = true := by
  rw [isPhrased, List.all_eq_true] at h
  rw [List.all_eq_true]
  exact fun p hp => ((Bool.and_eq_true _ _).mp (h p hp)).1

theorem seek_eq_spotAny (h : x.isPhrased parts = true) (names : List (String × Nat))
    (found : Spot → Match) (hfound : ∀ t, ∃ more, (found t).groups = t.groups ++ more)
    (s : Spot) :
    (x.seek s some).map (fun t => (t.taken - s.taken, Template.expand names parts (found t))) =
      (spotAny (x.phrases parts) s.before.head? s.after).map fun spotted =>
        (spotted.1.length, spotted.2) := by
  have hbranches := ofBranch?_of_isPhrased h
  rw [seek, spotAny, phrases]
  generalize x.branches = ps at hbranches
  induction ps with
  | nil => rfl
  | cons p ps ih =>
      obtain ⟨⟨ph, hph⟩, hps⟩ := List.forall_mem_cons.mp hbranches
      have hone := Phrase.at?_of_ofBranch? hph names hfound s
      rw [List.findSome?_cons, List.filterMap_cons_some hph, List.findSome?_cons]
      cases hend : p.end? s with
      | some t =>
          rw [hend, Option.map_some] at hone
          obtain ⟨spotted, hspotted, heq⟩ := Option.map_eq_some_iff.mp hone.symm
          simp [hspotted, heq]
      | none =>
          rw [hend, Option.map_none, eq_comm, Option.map_eq_none_iff] at hone
          simpa [hone] using ih hps

theorem finds_of_isPhrased (hplain : x.isPlain = true) (h : x.isPhrased parts = true)
    (before after : List Char) : Finds x.matchAt? (Template.expand names parts) before after
      (spotAny (x.phrases parts) before.head? after) := by
  have hseek := seek_eq_spotAny h names
    (fun t => ⟨t.taken, t.groups ++ [(0, after.take t.taken)]⟩) (fun t => ⟨_, rfl⟩)
    (.start before after)
  rw [Finds, matchAt?_eq_branches hplain (isKeen_of_isPhrased h), Option.map_map]
  exact hseek

/-- A node that takes a character of a set as its first group, unless it stands at the start of the
text: the set, and what comes behind. -/
def unguard? : Node → Option (CharSet × Node)
  | cat (group 1 (alt none (look .textStart) (set guard))) x => some (guard, x)
  | cat x y => x.unguard?.map fun found => (found.1, cat found.2 y)
  | _ => none

theorem seek_of_unguard? {β : Type} {guard : CharSet} {rest : Node}
    (h : x.unguard? = some (guard, rest)) (s : Spot) (k : Spot → Option β) :
    x.seek s k = (group 1 (alt none (look .textStart) (set guard))).seek s fun t => rest.seek t k := by
  fun_induction unguard? x generalizing rest s k with
  | case1 guard x =>
      obtain ⟨rfl, rfl⟩ := Prod.mk.inj (Option.some.inj h)
      exact seek_cat _ _ s k
  | case2 x y _ ih =>
      obtain ⟨found, hfound, heq⟩ := Option.map_eq_some_iff.mp h
      obtain ⟨rfl, rfl⟩ := Prod.mk.inj heq
      rw [seek_cat, ih hfound]
      congr 1
      funext t
      exact (seek_cat _ _ t k).symm
  | case3 => cases h

theorem seek_guard {β : Type} (guard : CharSet) (before after : List Char)
    (k : Spot → Option β) :
    (group 1 (alt none (look .textStart) (set guard))).seek (.start before after) k =
      (if before.isEmpty then k ⟨0, before, after, [(1, [])], []⟩ else none).or
        (match after with
        | [] => none
        | c :: rest =>
          if guard.contains c then k ⟨1, c :: before, rest, [(1, [c])], []⟩ else none) := by
  rw [seek_group, seek_alt]
  cases after with
  | nil => cases before <;> simp [seek, branches, end?, Look.holds, Spot.record, Spot.start]
  | cons c rest =>
      cases before <;> cases hc : guard.contains c <;>
        simp [seek, branches, end?, Look.holds, Spot.record, Spot.start, Spot.step, hc]

theorem expand_numbered {parts : List Part} (names : List (String × Nat)) (m : Match) (index : Nat) :
    Template.expand names (.numbered index :: parts) m =
      (m.group? index).getD [] ++ Template.expand names parts m := rfl

/-- A node with a guard whose groups do not hide that of the guard. -/
def isGuarded (parts : List Part) (rest : Node) : Bool :=
  rest.isPhrased parts && rest.branches.all fun p => !p.indices.contains 1

theorem lookup_end? {p : Node} {s t : Spot} {index : Nat} (h : p.end? s = some t)
    (hindex : index ∉ p.indices) : t.groups.lookup index = s.groups.lookup index := by
  obtain ⟨text, recorded, hpasses, htakes⟩ := leads_of_end? h
  rw [hpasses.groups_eq, List.lookup_append, List.lookup_eq_none_iff.mpr, Option.none_or]
  intro entry hentry
  rw [bne_iff_ne]
  rintro rfl
  exact hindex (htakes.mem_indices entry hentry)

/-- Behind the guard the rest is found as it would be without one. -/
theorem seek_eq_behind_guard (h : x.isGuarded parts = true) (names : List (String × Nat))
    (after : List Char) {s : Spot} {text : List Char} (hs : s.groups = [(1, text)]) :
    (x.seek s some).map (fun t => (t.taken, Template.expand names (.numbered 1 :: parts)
        ⟨t.taken, t.groups ++ [(0, after.take t.taken)]⟩)) =
      (spotAny (x.phrases parts) s.before.head? s.after).map fun spotted =>
        (s.taken + spotted.1.length, text ++ spotted.2) := by
  obtain ⟨hphrased, hindices⟩ := (Bool.and_eq_true _ _).mp h
  have hseek := seek_eq_spotAny hphrased names
    (fun t => ⟨t.taken, t.groups ++ [(0, after.take t.taken)]⟩) (fun t => ⟨_, rfl⟩) s
  cases hfound : x.seek s some with
  | none =>
      rw [hfound, Option.map_none, eq_comm, Option.map_eq_none_iff] at hseek
      rw [hseek]
      rfl
  | some t =>
      rw [hfound, Option.map_some] at hseek
      obtain ⟨spotted, hspotted, heq⟩ := Option.map_eq_some_iff.mp hseek.symm
      obtain ⟨hlength, hout⟩ := Prod.mk.inj heq
      obtain ⟨p, hp, hend⟩ := List.exists_of_findSome?_eq_some hfound
      rw [Option.bind_fun_some] at hend
      obtain ⟨taken, recorded, hpasses, -⟩ := leads_of_end? hend
      have hnone : 1 ∉ p.indices := by simpa using List.all_eq_true.mp hindices p hp
      have hlookup : t.groups.lookup 1 = some text := by
        rw [lookup_end? hend hnone, hs]
        rfl
      have htaken : t.taken = s.taken + spotted.1.length := by
        rw [hpasses.taken_eq] at hlength ⊢
        omega
      simp [hspotted, expand_numbered, Match.group?, List.lookup_append, hlookup, hout, htaken]

theorem finds_of_isGuarded {guard : CharSet} {rest : Node} (hplain : x.isPlain = true)
    (hkeen : (x.branches.all fun p => p.isKeen none) = true)
    (hguard : x.unguard? = some (guard, rest)) (h : rest.isGuarded parts = true)
    (before after : List Char) :
    Finds x.matchAt? (Template.expand names (.numbered 1 :: parts)) before after
      (guarded (behind guard (spotAny (rest.phrases parts))) before after) := by
  rw [Finds, matchAt?_eq_branches hplain hkeen, Option.map_map, seek_of_unguard? hguard, seek_guard,
    guarded.eq_def, Option.map_or, Option.map_or]
  congr 1
  · cases before with
    | nil =>
        have hstart := seek_eq_behind_guard h names after
          (rfl : (⟨0, [], after, [(1, [])], []⟩ : Spot).groups = [(1, [])])
        simpa [behind, Function.comp_def] using hstart
    | cons d before => rfl
  · cases after with
    | nil => rfl
    | cons c after =>
        have hnext := seek_eq_behind_guard h names (c :: after)
          (rfl : (⟨1, c :: before, after, [(1, [c])], []⟩ : Spot).groups = [(1, [c])])
        by_cases hc : guard.contains c = true
        · simpa [behind, hc, Function.comp_def, Nat.add_comm] using hnext
        · simp [behind, hc]

end Node

end ClassSkeleton.Pattern
