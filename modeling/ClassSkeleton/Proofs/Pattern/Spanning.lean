import ClassSkeleton.Proofs.Pattern.Taking
import Mathlib.Data.List.Forall2

namespace ClassSkeleton.Pattern

/-!
# Nodes that span tags

From the tree of a node it can be seen which characters it takes first, and which it never takes.
Where the quotes in a tag come in pairs, it can also be seen that a node takes one whole tag, or
two of them with nothing but blanks or a group between them.
-/

namespace Node

section Characters

/-- The sets behind those of the single characters of a word. -/
def behind? : List Char → List CharSet → Option (List CharSet)
  | [], sets => some sets
  | c :: word, .one d :: sets => if c = d then behind? word sets else none
  | _ :: _, _ => none

/-- The sets that the first characters are taken from, and whether these are all. -/
def heads : Node → List CharSet × Bool
  | empty => ([], true)
  | set s => ([s], true)
  | look _ => ([], true)
  | cat x y => if x.heads.2 then (x.heads.1 ++ y.heads.1, y.heads.2) else (x.heads.1, false)
  | alt _ _ _ => ([], false)
  | run _ _ => ([], false)
  | star _ _ _ => ([], false)
  | plus _ _ _ => ([], false)
  | group _ x => x.heads

/-- Whether all that the node takes begins with a word. -/
def leads (x : Node) (word : List Char) : Bool := (behind? word x.heads.1).isSome

/-- Whether the node takes none of some characters. -/
def avoids (chars : List Char) : Node → Bool
  | empty => true
  | set s => chars.all fun c => !s.contains c
  | look _ => true
  | cat x y => x.avoids chars && y.avoids chars
  | alt _ x y => x.avoids chars && y.avoids chars
  | run _ s => chars.all fun c => !s.contains c
  | star _ _ x => x.avoids chars
  | plus _ _ x => x.avoids chars
  | group _ x => x.avoids chars

/-- Whether the groups of the node take none of some characters. -/
def groupsAvoid (chars : List Char) : Node → Bool
  | empty => true
  | set _ => true
  | look _ => true
  | cat x y => x.groupsAvoid chars && y.groupsAvoid chars
  | alt _ x y => x.groupsAvoid chars && y.groupsAvoid chars
  | run _ _ => true
  | star _ _ x => x.groupsAvoid chars
  | plus _ _ x => x.groupsAvoid chars
  | group _ x => x.avoids chars

variable {x : Node} {before text after : List Char} {recorded : List (Nat × List Char)}

theorem Takes.heads (h : x.Takes before text after recorded) :
    ∃ front rest, text = front ++ rest ∧
      List.Forall₂ (fun (s : CharSet) c => s.contains c = true) x.heads.1 front ∧
      (x.heads.2 = true → rest = []) := by
  induction h with
  | empty | look => exact ⟨[], [], rfl, .nil, fun _ => rfl⟩
  | @set _ _ _ c mem => exact ⟨[c], [], rfl, .cons mem .nil, fun _ => rfl⟩
  | @cat x y _ first second _ _ _ _ _ ihx ihy =>
      obtain ⟨front, rest, rfl, hfront, hrest⟩ := ihx
      obtain ⟨more, tail, rfl, hmore, htail⟩ := ihy
      rw [Node.heads]
      cases hall : x.heads.2 with
      | true =>
          obtain rfl := hrest hall
          exact ⟨front ++ more, tail, by simp, List.rel_append hfront hmore, htail⟩
      | false => exact ⟨front, rest ++ (more ++ tail), by simp, hfront, nofun⟩
  | @preferred _ _ _ _ text | @other _ _ _ _ text | @run _ _ _ text | @leave | @again | @plus =>
      exact ⟨[], _, rfl, .nil, nofun⟩
  | group _ ih => exact ih

theorem exists_of_behind? {word : List Char} {sets rest : List CharSet} {text : List Char}
    (h : behind? word sets = some rest)
    (htext : List.Forall₂ (fun (s : CharSet) c => s.contains c = true) sets text) :
    ∃ more, text = word ++ more ∧
      List.Forall₂ (fun (s : CharSet) c => s.contains c = true) rest more := by
  induction word generalizing sets text with
  | nil =>
      obtain rfl := Option.some.inj h
      exact ⟨text, rfl, htext⟩
  | cons c word ih =>
      rw [behind?.eq_def] at h
      split at h
      · next heq => cases heq
      · next d other set heq =>
        obtain ⟨rfl, rfl⟩ := List.cons.inj heq
        split at h
        · next hsame =>
          subst hsame
          cases htext with
          | cons mem hrest =>
              obtain rfl := beq_iff_eq.mp mem
              obtain ⟨more, rfl, hmore⟩ := ih h hrest
              exact ⟨more, rfl, hmore⟩
        · cases h
      · cases h

theorem Takes.leads {word : List Char} (h : x.Takes before text after recorded)
    (hleads : x.leads word = true) : ∃ more, text = word ++ more := by
  obtain ⟨sets, hsets⟩ := Option.isSome_iff_exists.mp hleads
  obtain ⟨front, rest, rfl, hfront, -⟩ := h.heads
  obtain ⟨more, rfl, -⟩ := exists_of_behind? hsets hfront
  exact ⟨more ++ rest, List.append_assoc _ _ _⟩

/-- What is recorded has been taken. -/
theorem Takes.mem_of_recorded (h : x.Takes before text after recorded) :
    ∀ entry ∈ recorded, ∀ c ∈ entry.2, c ∈ text := by
  induction h with
  | empty | set | look | run | leave => simp
  | cat _ _ ihx ihy | again _ _ ihx ihy | plus _ _ ihx ihy =>
      intro entry hentry c hc
      rcases List.mem_append.mp hentry with hentry | hentry
      · exact List.mem_append_right _ (ihy entry hentry c hc)
      · exact List.mem_append_left _ (ihx entry hentry c hc)
  | preferred _ ih | other _ ih => exact ih
  | group _ ih =>
      intro entry hentry c hc
      rcases List.mem_cons.mp hentry with rfl | hentry
      · exact hc
      · exact ih entry hentry c hc

variable {chars : List Char}

theorem notMem_of_avoids {s : CharSet} (h : (chars.all fun c => !s.contains c) = true) {c : Char}
    (hc : s.contains c = true) : c ∉ chars := by
  intro hmem
  have hnot := List.all_eq_true.mp h c hmem
  rw [hc] at hnot
  cases hnot

theorem Takes.notMem (h : x.Takes before text after recorded) (havoids : x.avoids chars = true) :
    ∀ c ∈ text, c ∉ chars := by
  induction h with
  | empty | look | leave => simp
  | set mem =>
      intro c hc
      obtain rfl := List.mem_singleton.mp hc
      exact notMem_of_avoids havoids mem
  | cat _ _ ihx ihy =>
      obtain ⟨hx, hy⟩ := (Bool.and_eq_true _ _).mp havoids
      intro c hc
      rcases List.mem_append.mp hc with hc | hc
      · exact ihx hx c hc
      · exact ihy hy c hc
  | preferred _ ih => exact ih ((Bool.and_eq_true _ _).mp havoids).1
  | other _ ih => exact ih ((Bool.and_eq_true _ _).mp havoids).2
  | run mem => exact fun c hc => notMem_of_avoids havoids (mem c hc)
  | again _ _ ihx ihloop | plus _ _ ihx ihloop =>
      intro c hc
      rcases List.mem_append.mp hc with hc | hc
      · exact ihx havoids c hc
      · exact ihloop havoids c hc
  | group _ ih => exact ih havoids

theorem Takes.recorded_notMem (h : x.Takes before text after recorded)
    (havoids : x.groupsAvoid chars = true) : ∀ entry ∈ recorded, ∀ c ∈ entry.2, c ∉ chars := by
  induction h with
  | empty | set | look | run | leave => simp
  | cat _ _ ihx ihy =>
      obtain ⟨hx, hy⟩ := (Bool.and_eq_true _ _).mp havoids
      intro entry hentry
      rcases List.mem_append.mp hentry with hentry | hentry
      · exact ihy hy entry hentry
      · exact ihx hx entry hentry
  | preferred _ ih => exact ih ((Bool.and_eq_true _ _).mp havoids).1
  | other _ ih => exact ih ((Bool.and_eq_true _ _).mp havoids).2
  | again _ _ ihx ihloop | plus _ _ ihx ihloop =>
      intro entry hentry
      rcases List.mem_append.mp hentry with hentry | hentry
      · exact ihloop havoids entry hentry
      · exact ihx havoids entry hentry
  | group taken _ =>
      intro entry hentry c hc
      rcases List.mem_cons.mp hentry with rfl | hentry
      · exact taken.notMem havoids c hc
      · exact taken.notMem havoids c (taken.mem_of_recorded entry hentry c hc)

end Characters

end Node

/-- What is known of the quotes between a place in a tag and its end: they come in pairs or not. -/
inductive Quotes where
  | closed
  | opened
  | unknown
  deriving DecidableEq, Repr

namespace Quotes

def Fits : Quotes → List Char → Prop
  | closed, rest => rest.count '"' % 2 = 0
  | opened, rest => rest.count '"' % 2 = 1
  | unknown, _ => True

def flip : Quotes → Quotes
  | closed => opened
  | opened => closed
  | unknown => unknown

def join (q r : Quotes) : Quotes := if q = r then q else unknown

theorem Fits.join_left {q : Quotes} {rest : List Char} (h : q.Fits rest) {r : Quotes} :
    (q.join r).Fits rest := by
  rw [join]
  split
  · exact h
  · trivial

theorem Fits.join_right {r : Quotes} {rest : List Char} (h : r.Fits rest) {q : Quotes} :
    (q.join r).Fits rest := by
  rw [join]
  split
  · next heq => exact heq ▸ h
  · trivial

theorem Fits.flip {q : Quotes} {rest : List Char} (h : q.Fits ('"' :: rest)) :
    q.flip.Fits rest := by
  cases q with
  | closed | opened =>
      simp only [Fits, Quotes.flip, List.count_cons_self] at h ⊢
      omega
  | unknown => trivial

theorem Fits.of_ne {q : Quotes} {c : Char} {rest : List Char} (h : q.Fits (c :: rest))
    (hc : c ≠ '"') : q.Fits rest := by
  cases q with
  | closed | opened => rwa [Fits, List.count_cons_of_ne hc] at h
  | unknown => trivial

theorem Fits.of_notMem {q : Quotes} {text rest : List Char} (h : q.Fits (text ++ rest))
    (htext : '"' ∉ text) : q.Fits rest := by
  cases q with
  | closed | opened =>
      rwa [Fits, List.count_append, List.count_eq_zero_of_not_mem htext, Nat.zero_add] at h
  | unknown => trivial

end Quotes

/-- What is known behind a character of a set that does not end the tag. -/
def CharSet.within? (s : CharSet) (q : Quotes) : Option Quotes :=
  if s.contains '>' then Option.none
  else if s.contains '"' then
    match s with
    | .one _ => some q.flip
    | _ => some .unknown
  else some q

theorem CharSet.fits_of_within {s : CharSet} {q r : Quotes} (h : s.within? q = some r) {c : Char}
    (hc : s.contains c = true) :
    c ≠ '>' ∧ ∀ {rest : List Char}, q.Fits (c :: rest) → r.Fits rest := by
  rw [within?.eq_def] at h
  by_cases hgreater : s.contains '>' = true
  · rw [if_pos hgreater] at h
    cases h
  · rw [if_neg hgreater] at h
    refine ⟨fun heq => hgreater (heq ▸ hc), ?_⟩
    intro rest hfits
    by_cases hquote : s.contains '"' = true
    · rw [if_pos hquote] at h
      cases s with
      | one d =>
          obtain rfl := Option.some.inj h
          obtain rfl : c = d := by simpa [contains] using hc
          obtain rfl : '"' = c := by simpa [contains] using hquote
          exact hfits.flip
      | _ =>
          obtain rfl := Option.some.inj h
          trivial
    · rw [if_neg hquote] at h
      obtain rfl := Option.some.inj h
      exact hfits.of_ne fun heq => hquote (heq ▸ hc)

/-- What is known behind some characters of a set. An odd number of quotes keeps a run in the tag
that does not take quotes. -/
def CharSet.runWithin? (s : CharSet) (q : Quotes) : Option Quotes :=
  if s.contains '"' then if s.contains '>' then Option.none else some .unknown
  else if s.contains '>' ∧ q ≠ .opened then Option.none
  else some q

namespace Node

/-- What is known behind a node that stays in the tag. -/
def within? : Node → Quotes → Option Quotes
  | empty, q => some q
  | set s, q => s.within? q
  | look _, q => some q
  | cat x y, q => (x.within? q).bind y.within?
  | alt _ x y, q => do
    let first ← x.within? q
    let second ← y.within? q
    return first.join second
  | run _ s, q => s.runWithin? q
  | star _ _ _, _ => none
  | plus _ _ _, _ => none
  | group _ x, q => x.within? q

/-- A text stays in a tag unless it takes the whole inside and the bracket that ends it. -/
theorem exists_rest {text after inside more : List Char}
    (heq : text ++ after = inside ++ '>' :: more) (hnot : ∀ tail, text ≠ inside ++ '>' :: tail) :
    ∃ rest, inside = text ++ rest ∧ after = rest ++ '>' :: more := by
  rcases List.append_eq_append_iff.mp heq with ⟨rest, hinside, hafter⟩ | ⟨tail, htext, hmore⟩
  · exact ⟨rest, hinside, hafter⟩
  · rcases tail with _ | ⟨c, tail⟩
    · exact ⟨[], by simpa using htext.symm, by simpa using hmore.symm⟩
    · obtain ⟨rfl, -⟩ := List.cons.inj hmore
      exact absurd htext (hnot tail)

/-- A run that stays in the tag takes a part of its inside. -/
theorem exists_rest_of_runWithin? {s : CharSet} {q r : Quotes} (h : s.runWithin? q = some r)
    {text after inside more : List Char} (mem : ∀ c ∈ text, s.contains c = true)
    (hfits : q.Fits inside) (heq : text ++ after = inside ++ '>' :: more) :
    ∃ rest, inside = text ++ rest ∧ r.Fits rest ∧ after = rest ++ '>' :: more := by
  have hnone {c : Char} (hc : ¬ s.contains c = true) : c ∉ text := fun hmem => hc (mem c hmem)
  rw [CharSet.runWithin?] at h
  split at h
  · split at h
    · cases h
    · next hgreater =>
      obtain rfl := Option.some.inj h
      obtain ⟨rest, rfl, hafter⟩ := exists_rest heq fun tail htext =>
        hnone hgreater (by rw [htext]; simp)
      exact ⟨rest, rfl, trivial, hafter⟩
  · next hquote =>
    have htext : '"' ∉ text := hnone hquote
    split at h
    · cases h
    · next hstays =>
      obtain rfl := Option.some.inj h
      obtain ⟨rest, rfl, hafter⟩ := exists_rest heq fun tail htail => by
        -- The inside would have an odd number of quotes, and the run takes none.
        by_cases hgreater : s.contains '>' = true
        · obtain rfl : q = .opened := by simpa [hgreater] using hstays
          have hinside : inside.count '"' = 0 :=
            List.count_eq_zero_of_not_mem fun hmem => htext (by rw [htail]; simp [hmem])
          rw [Quotes.Fits, hinside] at hfits
          cases hfits
        · exact hnone hgreater (by rw [htail]; simp)
      exact ⟨rest, rfl, hfits.of_notMem htext, hafter⟩

theorem exists_of_within?_alt {gate : Option Nat} {x y : Node} {q r : Quotes}
    (h : (alt gate x y).within? q = some r) :
    ∃ first second, x.within? q = some first ∧ y.within? q = some second ∧
      first.join second = r := by
  obtain ⟨first, hfirst, hrest⟩ := Option.bind_eq_some_iff.mp h
  obtain ⟨second, hsecond, hboth⟩ := Option.bind_eq_some_iff.mp hrest
  exact ⟨first, second, hfirst, hsecond, Option.some.inj hboth⟩

/-- A node that stays in the tag takes a part of its inside. -/
theorem Takes.within {x : Node} {before text after : List Char}
    {recorded : List (Nat × List Char)} (h : x.Takes before text after recorded)
    {q r : Quotes} (hwithin : x.within? q = some r) {inside more : List Char}
    (hfits : q.Fits inside) (heq : text ++ after = inside ++ '>' :: more) :
    ∃ rest, inside = text ++ rest ∧ r.Fits rest ∧ after = rest ++ '>' :: more := by
  induction h generalizing q r inside with
  | empty | look =>
      obtain rfl := Option.some.inj hwithin
      exact ⟨inside, rfl, hfits, heq⟩
  | @set s _ _ c mem =>
      obtain ⟨hgreater, hfit⟩ := CharSet.fits_of_within hwithin mem
      obtain ⟨rest, rfl, hafter⟩ := exists_rest heq fun tail htext => by
        have hc : '>' ∈ [c] := by rw [htext]; simp
        exact hgreater (List.mem_singleton.mp hc).symm
      exact ⟨rest, rfl, hfit hfits, hafter⟩
  | cat _ _ ihx ihy =>
      obtain ⟨p, hx, hy⟩ := Option.bind_eq_some_iff.mp hwithin
      rw [List.append_assoc] at heq
      obtain ⟨rest, rfl, hrest, hbehind⟩ := ihx hx hfits heq
      obtain ⟨tail, rfl, htail, hafter⟩ := ihy hy hrest hbehind
      exact ⟨tail, by rw [List.append_assoc], htail, hafter⟩
  | preferred _ ih =>
      obtain ⟨first, second, hfirst, -, rfl⟩ := exists_of_within?_alt hwithin
      obtain ⟨rest, rfl, hrest, hafter⟩ := ih hfirst hfits heq
      exact ⟨rest, rfl, hrest.join_left, hafter⟩
  | other _ ih =>
      obtain ⟨first, second, -, hsecond, rfl⟩ := exists_of_within?_alt hwithin
      obtain ⟨rest, rfl, hrest, hafter⟩ := ih hsecond hfits heq
      exact ⟨rest, rfl, hrest.join_right, hafter⟩
  | run mem => exact exists_rest_of_runWithin? hwithin mem hfits heq
  | leave | again | plus => cases hwithin
  | group _ ih => exact ih hwithin hfits heq

/-- What is known of the rest of a tag behind a node that begins it and stays in it. -/
def opened? : Node → Option Quotes
  | set (.one '<') => some .closed
  | cat x y => x.opened?.bind y.within?
  | _ => none

/-- Whether the node takes one whole tag. -/
def isTag : Node → Bool
  | cat x (set (.one '>')) => x.opened?.isSome
  | _ => false

end Node

/-- What may stand between two tags that a node takes. -/
inductive Gap where
  | blanks
  | group (index : Nat)
  deriving DecidableEq, Repr

def Gap.Holds (between : List Char) (recorded : List (Nat × List Char)) : Gap → Prop
  | blanks => ∀ c ∈ between, Unicode.isBlank c = true
  | group index => (index, between) ∈ recorded

theorem Gap.Holds.mono {gap : Gap} {between : List Char} {first second : List (Nat × List Char)}
    (h : gap.Holds between first) (hsub : first ⊆ second) : gap.Holds between second := by
  cases gap with
  | blanks => exact h
  | group index => exact hsub h

namespace Node

def gap? : Node → Option Gap
  | run _ .blank => some .blanks
  | group index (run _ (.compl (.one '<'))) => some (.group index)
  | _ => none

/-- What stands behind the first tag, and what is known of the rest of the second one, behind a
node that takes a tag, begins another one and stays in it. -/
def reopened? : Node → Option (Gap × Quotes)
  | cat (cat x y) (set (.one '<')) => if x.isTag then y.gap?.map (·, .closed) else none
  | cat x y => x.reopened?.bind fun known => (y.within? known.2).map (known.1, ·)
  | _ => none

/-- What stands between two tags that the node takes. -/
def pairGap? : Node → Option Gap
  | cat x (set (.one '>')) => x.reopened?.map Prod.fst
  | _ => none

section Tags

variable {x : Node} {before text after : List Char} {recorded : List (Nat × List Char)}
  {inside more : List Char}

theorem Takes.eq_of_one {c : Char}
    (h : (Node.set (.one c)).Takes before text after recorded) :
    text = [c] ∧ recorded = [] := by
  cases h with
  | set mem => exact ⟨by simpa [CharSet.contains] using mem, rfl⟩

theorem Takes.opened (h : x.Takes before text after recorded) {q : Quotes}
    (hopened : x.opened? = some q) (hpaired : Quotes.closed.Fits inside)
    (heq : text ++ after = '<' :: (inside ++ '>' :: more)) :
    ∃ front rest, text = '<' :: front ∧ inside = front ++ rest ∧ q.Fits rest ∧
      after = rest ++ '>' :: more ∧ ∀ entry ∈ recorded, ∀ c ∈ entry.2, c ∈ front := by
  induction x generalizing before text after recorded q with
  | set s =>
      rw [opened?.eq_def] at hopened
      split at hopened
      · next hnode =>
        obtain rfl := Node.set.inj hnode
        obtain rfl := Option.some.inj hopened
        obtain ⟨rfl, rfl⟩ := h.eq_of_one
        exact ⟨[], inside, rfl, rfl, hpaired, (List.cons.inj heq).2, by simp⟩
      · next hnode => cases hnode
      · cases hopened
  | cat x y ihx _ =>
      obtain ⟨p, hx, hy⟩ := Option.bind_eq_some_iff.mp hopened
      cases h with
      | cat head tail =>
          rw [List.append_assoc] at heq
          obtain ⟨front, rest, rfl, rfl, hrest, hbehind, hgroups⟩ := ihx head hx heq
          obtain ⟨end', rfl, hend, hafter⟩ := tail.within hy hrest hbehind
          refine ⟨front ++ _, end', rfl, by rw [List.append_assoc], hend, hafter, ?_⟩
          intro entry hentry c hc
          rcases List.mem_append.mp hentry with hentry | hentry
          · exact List.mem_append_right _ (tail.mem_of_recorded entry hentry c hc)
          · exact List.mem_append_left _ (hgroups entry hentry c hc)
  | _ => cases hopened

theorem Takes.tag (h : x.Takes before text after recorded) (htag : x.isTag = true)
    (hpaired : Quotes.closed.Fits inside) (hinside : '>' ∉ inside)
    (heq : text ++ after = '<' :: (inside ++ '>' :: more)) :
    text = '<' :: (inside ++ ['>']) ∧ after = more ∧
      ∀ entry ∈ recorded, ∀ c ∈ entry.2, c ∈ inside := by
  rw [isTag.eq_def] at htag
  split at htag
  · next x =>
    obtain ⟨q, hq⟩ := Option.isSome_iff_exists.mp htag
    cases h with
    | cat head tail =>
        obtain ⟨rfl, rfl⟩ := tail.eq_of_one
        rw [List.append_assoc] at heq
        obtain ⟨front, rest, rfl, rfl, -, hbehind, hgroups⟩ := head.opened hq hpaired heq
        rcases rest with _ | ⟨c, rest⟩
        · refine ⟨by simp, (List.cons.inj hbehind).2, ?_⟩
          simpa using hgroups
        · obtain ⟨rfl, -⟩ := List.cons.inj hbehind
          exact absurd (by simp) hinside
  · cases htag

/-- What a gap takes holds no bracket that begins a tag. -/
theorem Takes.gap {y : Node} (h : y.Takes before text after recorded) {gap : Gap}
    (hgap : y.gap? = some gap) : gap.Holds text recorded ∧ '<' ∉ text := by
  have hless : Unicode.isBlank '<' = false := by decide +kernel
  rw [gap?.eq_def] at hgap
  split at hgap
  · obtain rfl := Option.some.inj hgap
    cases h with
    | run mem =>
        refine ⟨mem, fun hmem => ?_⟩
        have hblank : Unicode.isBlank '<' = true := mem '<' hmem
        rw [hless] at hblank
        cases hblank
  · obtain rfl := Option.some.inj hgap
    cases h with
    | group taken =>
        cases taken with
        | run mem =>
            refine ⟨List.mem_singleton_self _, fun hmem => ?_⟩
            simpa [CharSet.contains] using mem '<' hmem
  · cases hgap

/-- Whether the quotes of every tag in a text come in pairs. -/
def PairedFrom (text : List Char) : Prop :=
  ∀ front back, text = front ++ '<' :: back →
    ∃ inside more, back = inside ++ '>' :: more ∧ Quotes.closed.Fits inside ∧ '>' ∉ inside

theorem Takes.reopened (h : x.Takes before text after recorded) {gap : Gap} {q : Quotes}
    (hopened : x.reopened? = some (gap, q)) (hpaired : Quotes.closed.Fits inside)
    (hinside : '>' ∉ inside) (hmore : PairedFrom more)
    (heq : text ++ after = '<' :: (inside ++ '>' :: more)) :
    ∃ between body front rest behind, text = '<' :: (inside ++ '>' :: (between ++ '<' :: front)) ∧
      more = between ++ '<' :: (body ++ '>' :: behind) ∧ '>' ∉ body ∧ '<' ∉ between ∧
      body = front ++ rest ∧ q.Fits rest ∧ after = rest ++ '>' :: behind ∧
      gap.Holds between recorded := by
  induction x generalizing before text after recorded gap q with
  | cat x y ihx _ =>
      rw [reopened?.eq_def] at hopened
      split at hopened
      · next x g hnode =>
        obtain ⟨rfl, rfl⟩ := Node.cat.inj hnode
        split at hopened
        · next htag =>
          obtain ⟨found, hgap, hboth⟩ := Option.map_eq_some_iff.mp hopened
          obtain ⟨rfl, rfl⟩ := Prod.mk.inj hboth
          cases h with
          | cat front bracket =>
              cases front with
              | cat first middle =>
                  obtain ⟨rfl, rfl⟩ := bracket.eq_of_one
                  rw [List.append_assoc, List.append_assoc] at heq
                  obtain ⟨rfl, rfl, -⟩ := first.tag htag hpaired hinside heq
                  obtain ⟨body, behind, rfl, hbody, hgreater⟩ := hmore _ _ rfl
                  obtain ⟨hholds, hless⟩ := middle.gap hgap
                  exact ⟨_, body, [], body, behind, by simp, rfl, hgreater, hless, rfl, hbody,
                    rfl, hholds.mono (by simp)⟩
        · cases hopened
      · next x y hnot hnode =>
        obtain ⟨rfl, rfl⟩ := Node.cat.inj hnode
        obtain ⟨⟨found, p⟩, hx, hy⟩ := Option.bind_eq_some_iff.mp hopened
        obtain ⟨r, hr, hboth⟩ := Option.map_eq_some_iff.mp hy
        obtain ⟨rfl, rfl⟩ := Prod.mk.inj hboth
        cases h with
        | @cat _ _ _ _ second _ _ _ head tail =>
            rw [List.append_assoc] at heq
            obtain ⟨between, body, front, rest, behind, rfl, rfl, hbody, hless, rfl, hrest,
              hbehind, hgap⟩ := ihx head hx heq
            obtain ⟨final, rfl, hfinal, hafter⟩ := tail.within hr hrest hbehind
            exact ⟨between, _, front ++ second, final, behind, by simp, rfl, hbody, hless, by simp,
              hfinal, hafter, hgap.mono (List.subset_append_right _ _)⟩
      · cases hopened
  | _ => cases hopened

/-- A node for two tags takes them and what stands between them, and no more. -/
theorem Takes.pair (h : x.Takes before text after recorded) {gap : Gap}
    (hpair : x.pairGap? = some gap) (hpaired : Quotes.closed.Fits inside) (hinside : '>' ∉ inside)
    (hmore : PairedFrom more) (heq : text ++ after = '<' :: (inside ++ '>' :: more)) :
    ∃ between body, text = '<' :: (inside ++ '>' :: (between ++ '<' :: (body ++ ['>']))) ∧
      more = between ++ '<' :: (body ++ '>' :: after) ∧ '>' ∉ body ∧ '<' ∉ between ∧
      gap.Holds between recorded := by
  rw [pairGap?.eq_def] at hpair
  split at hpair
  · next x =>
    obtain ⟨⟨found, q⟩, hfound, rfl⟩ := Option.map_eq_some_iff.mp hpair
    cases h with
    | cat head tail =>
        obtain ⟨rfl, rfl⟩ := tail.eq_of_one
        rw [List.append_assoc] at heq
        obtain ⟨between, body, front, rest, behind, rfl, rfl, hbody, hless, rfl, -, hbehind, hgap⟩ :=
          head.reopened hfound hpaired hinside hmore heq
        rcases rest with _ | ⟨c, rest⟩
        · obtain rfl := (List.cons.inj hbehind).2
          exact ⟨between, front ++ [], by simp, rfl, hbody, hless, by simpa using hgap⟩
        · obtain ⟨rfl, -⟩ := List.cons.inj hbehind
          exact absurd (by simp) hbody
  · cases hpair

end Tags

end Node

end ClassSkeleton.Pattern
