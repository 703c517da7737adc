import ClassSkeleton.Proofs.Rules.Cutting
import ClassSkeleton.Proofs.Rules.Removal
import ClassSkeleton.Proofs.Text.Spacing

namespace ClassSkeleton.Rules

/-!
# Blanks and the rules for types

The first rules leave a neat text, in which no blank is lone that was not. What the later rules put
somewhere is neat as well, so they keep a text neat, unless a wrapper is taken off that encloses
nothing but blanks.
-/

open Pattern Text Standard

section Sweeping

variable {at? : Spotter} {c : Char} {prev : Option Char} {text new : List Char}

/-- Whether what is put somewhere is the end of what is taken, and behind a character that is no
blank. Blanks may stand at its end only if the text ends there. -/
def LeavesEnd (at? : Spotter) : Prop :=
  ∀ {p taken rest out}, at? p (taken ++ rest) = some (taken, out) →
    ∃ lead s, Unicode.isBlank s = false ∧ lead ++ s :: out <+: taken ∧
      (rest = [] ∨ taken = lead ++ s :: out ∧ ∀ d ∈ out.getLast?, Unicode.isBlank d = false)

/-- Whether every lone blank of a new text has been one before, whatever stands in front. -/
def BringsLone (c : Char) (text new : List Char) : Prop :=
  ∀ p : Option Char, Lone c (p.toList ++ new) → Lone c (p.toList ++ text)

theorem BringsLone.keep {d : Char} {rest : List Char}
    (hblank : ∀ {d p text}, Unicode.isBlank d = true → at? p (d :: text) = none →
      ∀ q, at? q text = none)
    (missed : at? prev (d :: rest) = none) (tail : Rewrites at? (some d) rest new)
    (h : BringsLone c rest new) : BringsLone c (d :: rest) (d :: new) := by
  intro p hlone
  have hlater : Lone c (d :: new) → Lone c (p.toList ++ d :: rest) := fun hlone =>
    (h (some d) hlone).of_part (List.suffix_append p.toList (d :: rest)).isInfix
  cases p with
  | none => exact hlater hlone
  | some a =>
      rcases hlone.cons_cases with hlone | ⟨ha, hc, b, more, heq, hb⟩
      · exact hlater hlone
      · -- What is behind a blank that is kept is kept.
        obtain ⟨rfl, hnew⟩ := List.cons.inj heq
        have hnone := hblank hc missed (some d)
        cases tail with
        | nil => cases hnew
        | @keep _ e rest new =>
            obtain ⟨rfl, -⟩ := List.cons.inj hnew
            exact ⟨a, e, (List.prefix_append [a, d, e] rest).isInfix, ha, hc, hb⟩
        | swap nonempty found =>
            rw [found] at hnone
            cases hnone

/-- A blank alone in what is put somewhere and in what follows has the end of what is taken in
front of it. -/
theorem BringsLone.swap {taken out rest : List Char} (hends : LeavesEnd at?)
    (found : at? prev (taken ++ rest) = some (taken, out))
    (tail : Rewrites at? taken.getLast? rest new) (h : BringsLone c rest new) :
    BringsLone c (taken ++ rest) (out ++ new) := by
  intro p hlone
  obtain ⟨lead, s, hs, hstarts, hend⟩ := hends found
  have hwhole : s :: out <:+: p.toList ++ (taken ++ rest) := by
    have hin : s :: out <:+: lead ++ s :: out := (List.suffix_append lead _).isInfix
    exact hin.trans (hstarts.isInfix.trans ((List.prefix_append taken rest).isInfix.trans
      (List.suffix_append p.toList _).isInfix))
  rcases hend with rfl | ⟨htaken, hlast⟩
  · obtain rfl := tail.eq .nil
    rw [List.append_nil] at hlone
    exact (hlone.of_prev hs).of_part hwhole
  · have hbehind {d : Char} (front : List Char) (htaken : taken = front ++ [d])
        (hlone : Lone c (d :: new)) : Lone c (p.toList ++ (taken ++ rest)) := by
      refine (h (some d) hlone).of_part ⟨p.toList ++ front, [], ?_⟩
      simp [htaken]
    rcases List.eq_nil_or_concat out with rfl | ⟨out, d, rfl⟩
    · exact hbehind _ htaken (hlone.of_prev hs)
    · rw [List.concat_eq_append] at *
      have hd := hlast d (by simp)
      rw [List.append_assoc, List.singleton_append, ← List.append_assoc] at hlone
      rcases hlone.append_cases hd with hlone | hlone
      · rw [List.append_assoc] at hlone
        exact (hlone.of_prev hs).of_part hwhole
      · exact hbehind (lead ++ s :: out) (by simp [htaken]) hlone

/-- A blank that is kept and that stands alone in the new text has stood alone before. -/
theorem lone_of_lone_rewrites (hends : LeavesEnd at?)
    (hblank : ∀ {d p text}, Unicode.isBlank d = true → at? p (d :: text) = none →
      ∀ q, at? q text = none)
    (h : Rewrites at? prev text new) : BringsLone c text new := by
  induction h with
  | nil => exact fun _ hlone => hlone
  | keep missed tail ih => exact ih.keep hblank missed tail
  | swap _ found tail ih => exact ih.swap @hends found tail

/-- What is taken behind the last of the signs. -/
theorem exists_tail_of_signed {sign : Char} {inner : Spotter} {taken out : List Char}
    (h : signed sign inner prev text = some (taken, out)) : ∃ lead tail found,
      text = lead ++ sign :: tail ∧ taken = lead ++ sign :: found ∧
        inner (some sign) tail = some (found, out) := by
  obtain ⟨gap, signs, tail, found, -, hsigns, rfl, rfl, hfound⟩ := exists_of_signed h
  have hmove (behind : List Char) : sign :: (signs ++ behind) = signs ++ sign :: behind := by
    rw [List.eq_replicate_of_mem hsigns, ← List.cons_append, ← List.replicate_succ,
      List.replicate_succ', List.append_assoc, List.singleton_append]
  refine ⟨gap ++ signs, tail, found, ?_, ?_, hfound⟩
  · rw [hmove, List.append_assoc]
  · rw [hmove, List.append_assoc]

/-- Whether pieces take a character that is no blank in the end, or all of a text. -/
def isClosed : List Piece → Bool
  | [] => false
  | [.look .textEnd] => true
  | [.one s] => Node.apart .blank s
  | [.one s, .look _] => Node.apart .blank s
  | _ :: pieces => isClosed pieces

/-- Whether a phrase, all of it dropped or all of it kept, takes no blank in the end. -/
def isEnding (ph : Phrase) : Bool :=
  ph.lit.isEmpty && (ph.front.isEmpty || ph.back.isEmpty) && isClosed (ph.front ++ ph.back)

theorem take?_of_isClosed {pieces : List Piece} {p : Option Char} {text taken rest : List Char}
    (h : isClosed pieces = true) (htake : take? pieces p text = some (taken, rest)) :
    rest = [] ∨ ∃ d ∈ taken.getLast?, Unicode.isBlank d = false := by
  have hset {s : CharSet} (hs : Node.apart .blank s = true) {d : Char}
      (hd : s.contains d = true) : Unicode.isBlank d = false := by
    by_contra hblank
    rw [Node.not_contains_of_apart hs (by simpa [CharSet.contains] using hblank)] at hd
    cases hd
  fun_induction isClosed pieces generalizing p text taken with
  | case1 => cases h
  | case2 =>
      obtain ⟨hend, htake⟩ := Option.ite_none_right_eq_some.mp htake
      obtain ⟨-, rfl⟩ := Prod.mk.inj (Option.some.inj htake)
      exact Or.inl (List.isEmpty_iff.mp hend)
  | case3 s =>
      rcases text with _ | ⟨d, text⟩
      · cases htake
      · obtain ⟨hd, htake⟩ := Option.ite_none_right_eq_some.mp htake
        obtain ⟨rfl, -⟩ := Prod.mk.inj (Option.some.inj htake)
        exact Or.inr ⟨d, rfl, hset h hd⟩
  | case4 s l =>
      rcases text with _ | ⟨d, text⟩
      · cases htake
      · obtain ⟨hd, htake⟩ := Option.ite_none_right_eq_some.mp htake
        obtain ⟨found, hfound, heq⟩ := Option.map_eq_some_iff.mp htake
        obtain ⟨-, hfound⟩ := Option.ite_none_right_eq_some.mp hfound
        obtain rfl := Option.some.inj hfound
        obtain ⟨rfl, -⟩ := Prod.mk.inj heq
        exact Or.inr ⟨d, rfl, hset h hd⟩
  | case5 piece pieces _ _ _ ih =>
      have happend := take?_append [piece] pieces p text
      rw [List.singleton_append, htake] at happend
      obtain ⟨first, -, hmap⟩ := Option.bind_eq_some_iff.mp happend.symm
      obtain ⟨second, hsecond, heq⟩ := Option.map_eq_some_iff.mp hmap
      obtain ⟨rfl, rfl⟩ := Prod.mk.inj heq
      refine (ih h hsecond).imp_right ?_
      rintro ⟨d, hd, hblank⟩
      exact ⟨d, by rw [List.getLast?_append, Option.mem_def.mp hd]; rfl, hblank⟩

/-- What is kept is the end of what is taken if a phrase takes no blank in the end. -/
theorem leavesEnd_signed {sign : Char} (hsign : Unicode.isBlank sign = false) {phs : List Phrase}
    (h : phs.all isEnding = true) : LeavesEnd (signed sign (spotAny phs)) := by
  intro p taken rest out hfound
  obtain ⟨lead, tail, found, htext, rfl, hinner⟩ := exists_tail_of_signed hfound
  obtain ⟨ph, hph, hat⟩ := spotAny_eq_some hinner
  obtain ⟨rest', htake, rfl⟩ := Phrase.take?_of_at? hat
  obtain rfl : rest = rest' := by simpa using htext
  obtain ⟨hboth, hclosed⟩ := (Bool.and_eq_true _ _).mp (List.all_eq_true.mp h ph hph)
  obtain ⟨hlit, hside⟩ := (Bool.and_eq_true _ _).mp hboth
  have hend := take?_of_isClosed hclosed htake
  obtain ⟨⟨first, left⟩, hfirst, hmap⟩ := Option.bind_eq_some_iff.mp hat
  obtain ⟨⟨second, more⟩, hsecond, heq⟩ := Option.map_eq_some_iff.mp hmap
  have hparts : first ++ second = found ∧ ph.lit ++ second = out := Prod.mk.inj heq
  obtain ⟨rfl, rfl⟩ := hparts
  rw [List.isEmpty_iff.mp hlit, List.nil_append]
  rcases (Bool.or_eq_true _ _).mp hside with hfront | hback
  · rw [List.isEmpty_iff.mp hfront] at hfirst
    obtain ⟨rfl, -⟩ := Prod.mk.inj (Option.some.inj hfirst)
    refine ⟨lead, sign, hsign, List.prefix_rfl, hend.imp_right ?_⟩
    rintro ⟨d, hd, hblank⟩
    refine ⟨rfl, fun e he => ?_⟩
    obtain rfl : d = e := Option.some.inj (hd.symm.trans he)
    exact hblank
  · rw [List.isEmpty_iff.mp hback] at hsecond
    obtain ⟨rfl, -⟩ := Prod.mk.inj (Option.some.inj hsecond)
    rw [List.append_nil] at hend ⊢
    rcases hend with hnil | ⟨d, hd, hblank⟩
    · exact ⟨lead, sign, hsign, ⟨first, by simp⟩, Or.inl hnil⟩
    · obtain ⟨init, hinit⟩ := List.getLast?_eq_some_iff.mp hd
      have hlast : lead ++ sign :: first = lead ++ sign :: init ++ [d] := by simp [hinit]
      exact ⟨lead ++ sign :: init, d, hblank, hlast ▸ List.prefix_rfl, Or.inr ⟨hlast, nofun⟩⟩

/-- What an entry that drops a sign leaves has no lone blank that was none before. -/
theorem lone_of_lone_replaceWith (sign : Char) (named : Bool) {pattern template : List Char}
    (hsign : Unicode.isBlank sign = false)
    (h : ((phrases? pattern template).any fun phs => (unsignedAll? sign phs).any fun inner =>
      inner.all (isApart [sign] named) && inner.all isEnding) = true)
    (hlone : Lone c (replaceWith pattern template text)) : Lone c text := by
  obtain ⟨phs, hphrases, h⟩ := (Option.any_eq_true _ _).mp h
  obtain ⟨inner, hinner, hall⟩ := (Option.any_eq_true _ _).mp h
  obtain ⟨hapart, hending⟩ := (Bool.and_eq_true _ _).mp hall
  have hled := signLed_of_unsignedAll? hinner hapart
  have hspots : spotAny phs = signed sign (spotAny inner) := by
    funext prev text
    exact spotAny_of_unsignedAll? hinner prev text
  have hrewrites := rewrites_of_phrases? hphrases hled.lawful text
  rw [hspots] at hled hrewrites
  refine lone_of_lone_rewrites (leavesEnd_signed hsign hending) ?_ hrewrites none hlone
  intro d p rest hd hmissed q
  rw [hled.blind, hled.blank rest hd, Option.map_eq_none_iff] at hmissed
  rw [hled.blind, hmissed]

end Sweeping

section Folding

theorem head?_fold {text : List Char} (h : ∀ c ∈ text.head?, Unicode.isBlank c = false) :
    (fold text).head? = text.head? := by
  rcases text with _ | ⟨c, text⟩
  · rw [fold_nil]
  · rw [fold_cons (h c rfl), List.head?_cons, List.head?_cons]

theorem single_fold (text : List Char) : (fold text).IsChain fun c d =>
    Unicode.isBlank c = false ∨ Unicode.isBlank d = false := by
  induction text using runs_induction Unicode.isBlank with
  | nil => simp
  | other c rest hc ih =>
      rw [fold_cons hc]
      exact ih.cons fun _ _ => Or.inl hc
  | run run rest hne hrun hrest ih =>
      rw [fold_blanks_append hrun hrest]
      refine List.IsChain.append ?_ ih fun _ _ d hd => Or.inr ?_
      · split
        · exact .singleton ' '
        · next hshort =>
            rcases run with _ | ⟨c, _ | ⟨d, run⟩⟩
            · exact absurd rfl hne
            · exact .singleton c
            · exact absurd (by simp) hshort
      · rw [head?_fold hrest] at hd
        exact hrest d hd

/-- Every blank that is left of a text is a space, or it is lone or at an end of the text. -/
theorem eq_space_of_mem_fold {text : List Char} {c : Char} (hc : c ∈ fold text)
    (hblank : Unicode.isBlank c = true) : c = ' ' ∨ ∃ front back, text = front ++ c :: back ∧
      (∀ d ∈ front.getLast?, Unicode.isBlank d = false) ∧
        ∀ d ∈ back.head?, Unicode.isBlank d = false := by
  induction text using runs_induction Unicode.isBlank with
  | nil => simp at hc
  | other d rest hd ih =>
      rw [fold_cons hd] at hc
      rcases List.mem_cons.mp hc with rfl | hc
      · rw [hd] at hblank
        cases hblank
      · refine (ih hc).imp_right ?_
        rintro ⟨front, back, rfl, hfront, hback⟩
        refine ⟨d :: front, back, rfl, fun e he => ?_, hback⟩
        rcases List.eq_nil_or_concat front with rfl | ⟨front, f, rfl⟩
        · obtain rfl : d = e := Option.some.inj he
          exact hd
        · rw [Option.mem_def, List.getLast?_cons_of_ne_nil (by simp)] at he
          exact hfront e he
  | run run rest hne hrun hrest ih =>
      rw [fold_blanks_append hrun hrest] at hc
      rcases List.mem_append.mp hc with hc | hc
      · split at hc
        · exact Or.inl (List.mem_singleton.mp hc)
        · next hshort =>
            rcases run with _ | ⟨d, _ | ⟨e, run⟩⟩
            · exact absurd rfl hne
            · obtain rfl := List.mem_singleton.mp hc
              exact Or.inr ⟨[], rest, rfl, nofun, hrest⟩
            · exact absurd (by simp) hshort
      · refine (ih hc).imp_right ?_
        rintro ⟨front, back, rfl, hfront, hback⟩
        rcases List.eq_nil_or_concat front with rfl | ⟨front, f, rfl⟩
        · rw [hrest c rfl] at hblank
          cases hblank
        · refine ⟨run ++ front.concat f, back, by simp, ?_, hback⟩
          rwa [List.getLast?_append_of_ne_nil _ (by simp)]

variable {ok : Char → Prop} {text : List Char}

/-- To fold a tidy text makes it neat, if all its lone blanks are allowed. -/
theorem neat_fold (h : Tidy text) (hok : ok ' ') (hlone : ∀ c, Lone c text → ok c) :
    Neat ok (fold text) := by
  have hfold := tidy_fold h
  refine ⟨hfold.front, hfold.back, single_fold text, fun c hc hblank => ?_⟩
  rcases eq_space_of_mem_fold hc hblank with rfl | ⟨front, back, rfl, hfront, hback⟩
  · exact hok
  · -- No blank stands at the end of a tidy text.
    rcases List.eq_nil_or_concat front with rfl | ⟨front, a, rfl⟩
    · rw [h.front c rfl] at hblank
      cases hblank
    · rcases back with _ | ⟨b, back⟩
      · rw [h.back c (by simp)] at hblank
        cases hblank
      · refine hlone c ⟨a, b, ⟨front, back, by simp⟩, hfront a (by simp), hblank, hback b rfl⟩

end Folding

section Spelled

variable {ok : Char → Prop} {text : List Char} {at? : Spotter}

theorem lone_of_lone_marks {c : Char} (h : Lone c (unpointed (unpinned (unreferenced text)))) :
    Lone c text := by
  rw [unpointed, unpinned, unreferenced] at h
  have hpointed := lone_of_lone_replaceWith '*' false (by decide)
    (by decide +kernel) h
  have hpinned := lone_of_lone_replaceWith '*' true (by decide)
    (by decide +kernel) hpointed
  exact lone_of_lone_replaceWith '&' true (by decide) (by decide +kernel) hpinned

theorem neat_bare (hok : ok ' ') (hlone : ∀ c, Lone c text → ok c) : Neat ok (bare text) := by
  by_cases hnil : bare text = []
  · rw [hnil]
    exact .nil
  · rw [bare_eq] at hnil ⊢
    have htrim : trim (unpointed (unpinned (unreferenced text))) ≠ [] := by
      intro h
      rw [h, fold_nil] at hnil
      exact hnil rfl
    refine neat_fold (tidy_trim htrim) hok fun c hc => hlone c (lone_of_lone_marks ?_)
    exact hc.of_part (trim_isInfix _)

/-- What is neat stays neat where all that is put there is neat. -/
theorem neat_of_rewrites
    (hout : ∀ {p text taken out}, at? p text = some (taken, out) → Neat ok out ∧ out ≠ [])
    {prev : Option Char} {new : List Char} (h : Rewrites at? prev text new) (front : List Char)
    (htext : Neat ok (front ++ text)) : Neat ok (front ++ new) := by
  induction h generalizing front with
  | nil => exact htext
  | @keep _ c rest new _ _ ih =>
      rw [List.append_cons] at htext ⊢
      exact ih (front ++ [c]) htext
  | swap _ found _ ih =>
      obtain ⟨hneat, hne⟩ := hout found
      have hspliced := htext.splice hneat hne
      rw [← List.append_assoc] at hspliced ⊢
      exact ih _ hspliced

/-- Whether all that an entry puts somewhere is neat. -/
def putsNeat (entry : List Char × List Char) : Bool :=
  (turning? entry.1 entry.2).any fun found =>
    found.2.all fun t => decide (Neat (· = ' ') t.out ∧ t.out ≠ [])

theorem putsNeat_turnEntries : turnEntries.all putsNeat = true := by
  simp only [turnEntries, ← chars_eq_toList]
  decide +kernel

theorem neat_rewriteAll (hok : ok ' ') {entries : List (List Char × List Char)}
    {seams : List Seam} (hseams : seamsOf? entries = some seams)
    (hputs : entries.all putsNeat = true) (htext : Neat ok text) :
    Neat ok (rewriteAll entries text) := by
  induction entries generalizing seams text with
  | nil => exact htext
  | cons entry entries ih =>
      obtain ⟨hentry, hrest⟩ := (Bool.and_eq_true _ _).mp hputs
      obtain ⟨later, hlater, hseams⟩ := Option.bind_eq_some_iff.mp hseams
      obtain ⟨⟨guard, turns⟩, hturning, hseams⟩ := Option.bind_eq_some_iff.mp hseams
      obtain ⟨hall, -⟩ := Option.ite_none_right_eq_some.mp hseams
      simp only [Bool.and_eq_true, List.contains_iff_mem, List.all_eq_true] at hall
      rw [putsNeat, hturning, Option.any_some, List.all_eq_true] at hentry
      have hturns := turns_of_turning? hturning hall.1 (fun t ht => (hall.2 t ht).1.1)
        fun t ht => (hall.2 t ht).1.2
      refine ih hlater hrest (neat_of_rewrites ?_ (hturns.rewrites text) [] htext)
      intro p text taken out hfound
      obtain ⟨t, ht, hat⟩ := turnAny_eq_some (Option.ite_none_right_eq_some.mp hfound).2
      obtain ⟨rfl, -⟩ := Turn.exists_of_at? hat
      obtain ⟨hneat, hne⟩ := of_decide_eq_true (hentry t ht)
      exact ⟨hneat.of_space hok, hne⟩

theorem neat_finalized (hok : ok ' ') (htext : Neat ok text) : Neat ok (finalized text) := by
  have hfinal : Neat ok "final".toList :=
    (by decide : Neat (· = ' ') "final".toList).of_space hok
  by_cases hconst : text = const
  · rw [hconst, finalized_const]
    exact hfinal
  · by_cases hahead : ∃ c rest, text = const ++ c :: rest ∧ Unicode.isBlank c = true
    · obtain ⟨c, rest, rfl, hc⟩ := hahead
      have hne : rest ≠ [] := by
        rintro rfl
        rw [htext.back c (by simp)] at hc
        cases hc
      have hlast : ∀ d ∈ rest.getLast?, Unicode.isBlank d = false := by
        intro d hd
        refine htext.back d ?_
        rwa [List.append_cons, List.getLast?_append_of_ne_nil _ hne]
      have hhead : ∀ d ∈ rest.head?, Unicode.isBlank d = false := by
        intro d hd
        have hpair := (List.isChain_cons.mp htext.single.right_of_append).1 d hd
        exact hpair.resolve_left (by rw [hc]; nofun)
      have hrest : Neat ok rest := htext.of_part ⟨const ++ [c], [], by simp⟩ hhead hlast
      have hgap : ∀ d ∈ [c], Unicode.isBlank d = true := List.forall_mem_singleton.mpr hc
      have hwhole := finalized_ahead (List.cons_ne_nil c []) hgap hhead
      rw [List.singleton_append] at hwhole
      rw [hwhole]
      exact hfinal.append_space hrest (by decide) hne hok
    · rw [finalized_of_ne hconst]
      · exact htext
      · rintro tail rfl c hc
        obtain ⟨rest, rfl⟩ := List.head?_eq_some_iff.mp hc
        by_contra hblank
        exact hahead ⟨c, rest, rfl, by simpa using hblank⟩

/-- What the tables for references and for types leave is neat, if the lone blanks of the text are
allowed. -/
theorem neat_spelled (hok : ok ' ') (hlone : ∀ c, Lone c text → ok c) :
    Neat ok (spelled text) :=
  neat_rewriteAll hok seamsOf?_turnEntries putsNeat_turnEntries
    (neat_finalized hok (neat_bare hok hlone))

end Spelled

section Dotted

variable {ok : Char → Prop} {text : List Char}

theorem neat_dotted (htext : Neat ok text) : Neat ok (dotted text) := by
  refine neat_of_rewrites ?_ (rewrites_dotted text) [] htext
  intro p text taken out hfound
  rw [spot_separating] at hfound
  obtain ⟨-, hsome⟩ := Option.ite_none_right_eq_some.mp hfound
  obtain ⟨-, rfl⟩ := Prod.mk.inj (Option.some.inj hsome)
  exact ⟨.singleton (by decide), List.cons_ne_nil '.' []⟩

/-- No separator is left. -/
theorem not_isInfix_dotted (text : List Char) : ¬ [':', ':'] <:+: dotted text := by
  have hhead (text : List Char) (h : (dotted text).head? = some ':') : text.head? = some ':' := by
    by_cases hsep : [':', ':'] <+: text
    · obtain ⟨rest, rfl⟩ := hsep
      rfl
    · rcases text with _ | ⟨c, text⟩
      · rw [dotted_nil] at h
        cases h
      · rw [dotted_cons hsep] at h
        exact h
  induction hlength : text.length using Nat.strongRecOn generalizing text with
  | ind n ih =>
      by_cases hsep : [':', ':'] <+: text
      · obtain ⟨rest, rfl⟩ := hsep
        have hless : rest.length < n := by
          rw [← hlength, List.length_append]
          exact Nat.lt_add_of_pos_left (by decide)
        have hrest := ih rest.length hless rest rfl
        rw [List.cons_append, List.singleton_append, dotted_separator, List.infix_cons_iff]
        rintro (hstarts | hin)
        · exact absurd (List.cons_prefix_cons.mp hstarts).1 (by decide)
        · exact hrest hin
      · rcases text with _ | ⟨c, text⟩
        · rw [dotted_nil]
          simp
        · have hrest := ih text.length (by simp [← hlength]) text rfl
          rw [dotted_cons hsep, List.infix_cons_iff]
          rintro (hstarts | hin)
          · obtain ⟨rfl, hbehind⟩ := List.cons_prefix_cons.mp hstarts
            obtain ⟨more, hmore⟩ := hbehind
            obtain ⟨rest, rfl⟩ := List.head?_eq_some_iff.mp (hhead text (by rw [← hmore]; rfl))
            exact hsep (List.prefix_append [':', ':'] rest)
          · exact hrest hin

end Dotted

/-- What the wrappers enclose that are taken off when what a finder finds is unwrapped, from a place
on. -/
def enclosedFrom (find : Finder) (before after : List Char) : List (List Char) :=
  match after with
  | [] => []
  | c :: rest =>
    match find before (c :: rest) with
    | none => enclosedFrom find (c :: before) rest
    | some m =>
      match m.length with
      | 0 => enclosedFrom find (c :: before) rest
      | n + 1 =>
        match _closed : cutAtClose? 0 (rest.drop n) with
        | some (inside, tail) => inside :: enclosedFrom find before (trim inside ++ tail)
        | none => enclosedFrom find before (rest.drop n)
termination_by after.length
decreasing_by
  · simp
  · simp
  · have hparts := congrArg List.length (cutAtClose?_eq_append _closed)
    have htrim := length_trim_le inside
    simp only [List.length_drop, List.length_append, List.length_cons] at hparts ⊢
    omega
  · simp only [List.length_drop, List.length_cons]
    omega

/-- What wrappers enclose that the unwrapping rule of a pattern takes off. -/
def enclosedWith (pattern text : List Char) : List (List Char) :=
  match Grammar.read? pattern with
  | some (node, _) => enclosedFrom node.matchAt? [] text
  | none => []

/-- What wrappers enclose that unwrapping rules take off, each from what the rule before it left. -/
def enclosedBy : List String → List Char → List (List Char)
  | [], _ => []
  | pattern :: patterns, text =>
    enclosedWith pattern.toList text ++ enclosedBy patterns (unwrapWith pattern.toList text)

section Unwrapping

variable {ok : Char → Prop} {find : Finder} {names : List (List Char)}

theorem enclosedFrom_of_closed {before rest inside tail : List Char} {c : Char} {m : Match}
    {n : Nat} (hm : find before (c :: rest) = some m) (hlength : m.length = n + 1)
    (hclosed : cutAtClose? 0 (rest.drop n) = some (inside, tail)) :
    enclosedFrom find before (c :: rest) =
      inside :: enclosedFrom find before (trim inside ++ tail) := by
  rw [enclosedFrom]
  simp only [hm, hlength]
  split
  · next cut behind hcut =>
    obtain ⟨rfl, rfl⟩ := Prod.mk.inj (Option.some.inj (hcut.symm.trans hclosed))
    rfl
  · next hopen => cases hopen.symm.trans hclosed

/-- A neat text stays neat when wrappers are taken off that enclose more than blanks. -/
theorem Opens.neat_unwrapFrom (h : Opens find names) (before after : List Char)
    (hsettles : Settles .angle (before.reverse ++ after))
    (hneat : Neat ok (before.reverse ++ after))
    (hfilled : ∀ inside ∈ enclosedFrom find before after, trim inside ≠ []) :
    Neat ok (unwrapFrom find before after).text := by
  fun_induction unwrapFrom find before after with
  | case1 before => simpa using hneat
  | case2 before c rest hnone ih =>
      rw [enclosedFrom] at hfilled
      simp only [hnone] at hfilled
      exact ih (by simpa using hsettles) (by simpa using hneat) hfilled
  | case3 before c rest m hm hlength ih =>
      rw [enclosedFrom] at hfilled
      simp only [hm, hlength] at hfilled
      exact ih (by simpa using hsettles) (by simpa using hneat) hfilled
  | case4 before c rest m hm n hlength inside tail hclosed ih =>
      rw [enclosedFrom_of_closed hm hlength hclosed] at hfilled
      obtain ⟨hinside, hlater⟩ := List.forall_mem_cons.mp hfilled
      have hparts : c :: rest = c :: rest.take n ++ (inside ++ ['>']) ++ tail := by
        have hcut := cutAtClose?_eq_append hclosed
        rw [List.cons_append, List.cons_append, List.append_assoc, List.append_assoc,
          List.singleton_append, ← hcut, List.take_append_drop]
      have hwithin : trim inside <:+: before.reverse ++ c :: rest := by
        rw [hparts]
        exact (trim_isInfix inside).trans ⟨before.reverse ++ c :: rest.take n, '>' :: tail, by simp⟩
      have hends := tidy_trim hinside
      refine ih (h.settles_of_closed hm hlength hclosed hsettles) ?_ hlater
      have htrim : Neat ok (trim inside) := hneat.of_part hwithin hends.front hends.back
      rw [hparts] at hneat
      exact hneat.splice htrim hinside
  | case5 before c rest m hm n hlength hopen =>
      exact absurd hopen (h.closes hm hlength hsettles)

theorem neat_foldl_unwrapWith {patterns : List String} {tables : List (List (List Char))}
    (h : List.Forall₂ (fun pattern names => Unwraps pattern.toList names) patterns tables)
    {text : List Char} (hsettles : Settles .angle text) (hneat : Neat ok text)
    (hfilled : ∀ inside ∈ enclosedBy patterns text, trim inside ≠ []) :
    Neat ok (patterns.foldl (fun text pattern => unwrapWith pattern.toList text) text) := by
  induction h generalizing text with
  | nil => exact hneat
  | @cons pattern _ _ _ hfirst _ ih =>
      obtain ⟨node, groups, hread, hopens⟩ := hfirst
      obtain ⟨hhere, hlater⟩ := List.forall_mem_append.mp hfilled
      have hwith : unwrapWith pattern.toList text = (unwrapFrom node.matchAt? [] text).text := by
        rw [unwrapWith, hread]
        rfl
      rw [enclosedWith, hread] at hhere
      rw [hwith] at hlater
      rw [List.foldl_cons, hwith]
      exact ih (hopens.settles_unwrapFrom [] text hsettles)
        (hopens.neat_unwrapFrom [] text hsettles hneat hhere) hlater

theorem neat_unwrapped {text : List Char} (hsettles : Settles .angle text) (hneat : Neat ok text)
    (hfilled : ∀ inside ∈ enclosedBy wrappers text, trim inside ≠ []) :
    Neat ok (unwrapped text) := neat_foldl_unwrapWith wrappers_unwrap hsettles hneat hfilled

end Unwrapping

end ClassSkeleton.Rules
