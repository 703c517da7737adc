import ClassSkeleton.Proofs.Rules.Seams
import ClassSkeleton.Proofs.Rules.Spotting
import ClassSkeleton.Proofs.Text.Trimming

namespace ClassSkeleton.Rules

/-!
# Marks

The first rules for types drop the marks of pointers and references, with the blanks in front of
them. They do not look back, so a text can be cut anywhere but behind a mark.
-/

open Pattern Text Standard

/-- Whether a rule takes blanks and then one kind of sign, whatever stands in front, and goes over
no cut but behind such a sign. -/
structure SignLed (sign : Char) (named : Bool) (at? : Spotter) : Prop where
  lawful : at?.Lawful
  blind : ∀ prev text, at? prev text = at? none text
  blank : ∀ {c : Char} (text), Unicode.isBlank c = true →
    at? none (c :: text) = (at? none text).map fun found => (c :: found.1, found.2)
  other : ∀ {c : Char} (text), Unicode.isBlank c = false → c ≠ sign → at? none (c :: text) = none
  apart : ∀ {front back}, Stops [sign] named front back → ∀ rest, rest ≠ [] → rest <:+ front →
    at? none (rest ++ back) = at? none rest

/-- Takes blanks, then some of a sign, and what is taken behind them. -/
def signed (sign : Char) (inner : Spotter) : Spotter := fun _ text =>
  match text.dropWhile Unicode.isBlank with
  | [] => none
  | c :: rest =>
    if c = sign then
      (inner (some sign) (rest.dropWhile (· == sign))).map fun found =>
        (text.takeWhile Unicode.isBlank ++ c :: (rest.takeWhile (· == sign) ++ found.1), found.2)
    else none

section Phrases

variable {sign : Char} {named : Bool}

theorem getLast?_signs (sign : Char) (text : List Char) :
    (text.takeWhile (· == sign)).getLast?.or (some sign) = some sign := by
  cases h : (text.takeWhile (· == sign)).getLast? with
  | none => rfl
  | some c =>
      have hc := List.all_eq_true.mp List.all_takeWhile c (List.mem_of_getLast? h)
      rw [Option.some_or, eq_of_beq hc]

theorem take?_signed (sign : Char) (tail : List Piece) (prev : Option Char) (text : List Char) :
    take? (.many .blank :: .one (.one sign) :: .many (.one sign) :: tail) prev text =
      match text.dropWhile Unicode.isBlank with
      | [] => none
      | c :: rest =>
        if c = sign then
          (take? tail (some sign) (rest.dropWhile (· == sign))).map fun found =>
            (text.takeWhile Unicode.isBlank ++ c :: (rest.takeWhile (· == sign) ++ found.1),
              found.2)
        else none := by
  have hset : (CharSet.one sign).contains = (· == sign) := rfl
  have hblank : CharSet.blank.contains = Unicode.isBlank := rfl
  rw [take?, hblank]
  cases text.dropWhile Unicode.isBlank with
  | nil => rfl
  | cons c rest =>
      by_cases hc : c = sign
      · subst hc
        simp only [take?, hset, beq_self_eq_true, if_true, getLast?_signs, Option.map_map]
        rfl
      · simp [take?, hset, hc]

/-- What is left of a phrase when blanks and signs have been taken. -/
def unsigned? (sign : Char) (ph : Phrase) : Option Phrase :=
  match ph.front with
  | .many .blank :: .one (.one c) :: .many (.one d) :: tail =>
    if c = sign ∧ d = sign then some ⟨tail, ph.lit, ph.back⟩ else none
  | _ => none

theorem at?_of_unsigned? {ph inner : Phrase} (h : unsigned? sign ph = some inner)
    (prev : Option Char) (text : List Char) :
    ph.at? prev text = signed sign inner.at? prev text := by
  unfold unsigned? at h
  split at h
  · next c d tail hfront =>
      split at h
      · next hsigns =>
          obtain ⟨hc, hd⟩ := hsigns
          subst hc hd
          obtain rfl := Option.some.inj h
          rw [Phrase.at?, hfront, take?_signed, signed]
          cases text.dropWhile Unicode.isBlank with
          | nil => rfl
          | cons e rest =>
              by_cases he : e = d
              · subst he
                simp only [if_true, Phrase.at?, Option.bind_map, Option.map_bind]
                congr 1
                funext first
                have hprev : (text.takeWhile Unicode.isBlank ++ e ::
                    (rest.takeWhile (· == e) ++ first.1)).getLast?.or prev =
                      first.1.getLast?.or (some e) := by
                  rw [List.getLast?_append_of_ne_nil _ (List.cons_ne_nil _ _), getLast?_cons_or,
                    List.getLast?_append, Option.or_assoc, getLast?_signs]
                simp only [Function.comp_apply, Option.map_map, hprev]
                congr 1
                funext second
                simp
              · simp [he]
      · cases h
  · cases h

/-- Phrases that are led by a sign, all of them, as what they are behind it. -/
def unsignedAll? (sign : Char) : List Phrase → Option (List Phrase)
  | [] => some []
  | ph :: phs => do return (← unsigned? sign ph) :: (← unsignedAll? sign phs)

theorem spotAny_of_unsignedAll? {phs inner : List Phrase} (h : unsignedAll? sign phs = some inner)
    (prev : Option Char) (text : List Char) :
    spotAny phs prev text = signed sign (spotAny inner) prev text := by
  induction phs generalizing inner with
  | nil =>
      obtain rfl := Option.some.inj h
      rw [signed]
      cases text.dropWhile Unicode.isBlank <;> simp [spotAny]
  | cons ph phs ih =>
      obtain ⟨first, hfirst, h⟩ := Option.bind_eq_some_iff.mp h
      obtain ⟨others, hothers, h⟩ := Option.bind_eq_some_iff.mp h
      obtain rfl := Option.some.inj h
      have hrest := ih hothers
      rw [spotAny, List.findSome?_cons, at?_of_unsigned? hfirst]
      rw [spotAny] at hrest
      rw [hrest, signed, signed, signed]
      cases text.dropWhile Unicode.isBlank with
      | nil => rfl
      | cons c rest =>
          by_cases hc : c = sign
          · simp only [hc, if_true, spotAny, List.findSome?_cons]
            cases first.at? (some sign) (rest.dropWhile (· == sign)) <;> rfl
          · simp [hc]

/-- Whether a phrase, all of it written or all of it kept, goes over no cut but behind signs. -/
def isApart (signs : List Char) (named : Bool) (ph : Phrase) : Bool :=
  (ph.front.isEmpty || ph.back.isEmpty) && seams? signs named none (ph.front ++ ph.back) == some []

theorem at?_of_isApart {signs : List Char} {ph : Phrase} (h : isApart signs named ph = true)
    {front back rest : List Char} (hstops : Stops signs named front back) (hsuffix : rest <:+ front)
    (hrest : rest ≠ []) (prev : Option Char) : ph.at? prev (rest ++ back) = ph.at? prev rest := by
  obtain ⟨hempty, hseams⟩ := (Bool.and_eq_true _ _).mp h
  have htracks : Tracks front none rest := by
    obtain ⟨passed, rfl⟩ := hsuffix
    exact ⟨passed, rfl, nofun⟩
  have hagrees := agrees_of_seams? (eq_of_beq hseams) hstops (by simp) htracks hrest prev
  rw [Agrees] at hagrees
  rcases (Bool.or_eq_true _ _).mp hempty with hfront | hback
  · have hnil := List.isEmpty_iff.mp hfront
    rw [hnil, List.nil_append] at hagrees
    simp [Phrase.at?, hnil, take?, hagrees, Function.comp_def]
  · have hnil := List.isEmpty_iff.mp hback
    rw [hnil, List.append_nil] at hagrees
    simp only [Phrase.at?, hnil, take?, hagrees]
    cases take? ph.front prev rest <;> rfl

theorem isPrefix_of_spotAny {phs : List Phrase} {prev : Option Char} {text taken out : List Char}
    (h : spotAny phs prev text = some (taken, out)) : taken <+: text := by
  obtain ⟨ph, -, hph⟩ := spotAny_eq_some h
  obtain ⟨rest, -, rfl⟩ := Phrase.take?_of_at? hph
  exact List.prefix_append taken rest

section Signed

variable {inner : Spotter}

/-- Where a sign is taken stand blanks, signs, and what is taken behind them. -/
theorem exists_of_signed {prev : Option Char} {text taken out : List Char}
    (h : signed sign inner prev text = some (taken, out)) : ∃ gap signs behind found,
    (∀ c ∈ gap, Unicode.isBlank c = true) ∧ (∀ c ∈ signs, c = sign) ∧
      text = gap ++ sign :: (signs ++ behind) ∧ taken = gap ++ sign :: (signs ++ found) ∧
      inner (some sign) behind = some (found, out) := by
  have hparts := List.takeWhile_append_dropWhile (p := Unicode.isBlank) (l := text)
  unfold signed at h
  split at h
  · cases h
  · next c rest hrest =>
      obtain ⟨rfl, h⟩ := Option.ite_none_right_eq_some.mp h
      obtain ⟨found, hfound, heq⟩ := Option.map_eq_some_iff.mp h
      obtain ⟨rfl, rfl⟩ := Prod.mk.inj heq
      refine ⟨text.takeWhile Unicode.isBlank, rest.takeWhile (· == c), rest.dropWhile (· == c),
        found.1, ?_, ?_, ?_, rfl, hfound⟩
      · exact fun d hd => List.mem_takeWhile_imp hd
      · exact fun d hd => eq_of_beq (List.mem_takeWhile_imp (p := (· == c)) hd)
      · rw [List.takeWhile_append_dropWhile, ← hrest, hparts]

theorem lawful_signed
    (hstarts : ∀ {prev text taken out}, inner prev text = some (taken, out) → taken <+: text) :
    (signed sign inner).Lawful := by
  intro prev text taken out h
  obtain ⟨gap, signs, behind, found, -, -, rfl, rfl, hfound⟩ := exists_of_signed h
  obtain ⟨rest, rfl⟩ := hstarts hfound
  exact ⟨by simp, rest, by simp⟩

theorem signed_blank {c : Char} (hc : Unicode.isBlank c = true) (prev : Option Char)
    (text : List Char) : signed sign inner prev (c :: text) =
      (signed sign inner prev text).map fun found => (c :: found.1, found.2) := by
  rw [signed, signed, List.dropWhile_cons_of_pos hc, List.takeWhile_cons_of_pos hc]
  cases text.dropWhile Unicode.isBlank with
  | nil => rfl
  | cons d rest =>
      by_cases hd : d = sign <;> simp [hd, Function.comp_def]

theorem signed_other {c : Char} (hc : Unicode.isBlank c = false) (hne : c ≠ sign)
    (prev : Option Char) (text : List Char) : signed sign inner prev (c :: text) = none := by
  have hdrop : (c :: text).dropWhile Unicode.isBlank = c :: text := by simp [hc]
  rw [signed, hdrop]
  simp [hne]

/-- The blanks and the signs that are taken end before the last character in front of the cut. -/
theorem signed_append {front back rest : List Char} (hstops : Stops [sign] named front back)
    (hrest : rest ≠ []) (hsuffix : rest <:+ front) (prev : Option Char)
    (hinner : ∀ tail, tail ≠ [] → tail <:+ front →
      inner (some sign) (tail ++ back) = inner (some sign) tail) :
    signed sign inner prev (rest ++ back) = signed sign inner prev rest := by
  obtain ⟨z, hz, hblank, hsign⟩ := hstops.last
  have hlast : rest.getLast? = some z := by
    obtain ⟨passed, rfl⟩ := hsuffix
    rwa [List.getLast?_append_of_ne_nil _ hrest] at hz
  obtain ⟨htake, hdrop⟩ := takeWhile_append_of_mem (List.mem_of_getLast? hlast) hblank back
  have hnext := getLast?_dropWhile (p := Unicode.isBlank) hlast hblank
  have hbehind : rest.dropWhile Unicode.isBlank <:+ front :=
    (List.dropWhile_suffix _).trans hsuffix
  rw [signed, signed, htake, hdrop]
  cases hcase : rest.dropWhile Unicode.isBlank with
  | nil =>
      rw [hcase] at hnext
      cases hnext
  | cons c more =>
      rw [hcase] at hnext hbehind
      by_cases hc : c = sign
      · have hne : more ≠ [] := by
          rintro rfl
          obtain rfl := Option.some.inj hnext
          exact hsign (List.mem_singleton.mpr hc)
        rw [List.getLast?_cons_of_ne_nil hne] at hnext
        have hz : (z == sign) = false :=
          beq_eq_false_iff_ne.mpr fun heq => hsign (List.mem_singleton.mpr heq)
        obtain ⟨hsigns, hrest⟩ :=
          takeWhile_append_of_mem (p := (· == sign)) (List.mem_of_getLast? hnext) hz back
        have hlater := getLast?_dropWhile (p := (· == sign)) hnext hz
        have htail := hinner _ (List.ne_nil_of_mem (List.mem_of_getLast? hlater))
          ((List.dropWhile_suffix _).trans ((List.suffix_cons c more).trans hbehind))
        simp only [List.cons_append, hc, if_true, hsigns, hrest, htail]
      · simp [hc]

theorem signLed_signed
    (hstarts : ∀ {prev text taken out}, inner prev text = some (taken, out) → taken <+: text)
    (hapart : ∀ {front back}, Stops [sign] named front back → ∀ rest, rest ≠ [] → rest <:+ front →
      ∀ prev, inner prev (rest ++ back) = inner prev rest) :
    SignLed sign named (signed sign inner) where
  lawful := lawful_signed hstarts
  blind := fun _ _ => rfl
  blank := fun text hc => signed_blank hc none text
  other := fun text hc hne => signed_other hc hne none text
  apart := fun hstops _ hrest hsuffix => signed_append hstops hrest hsuffix none
    fun tail hne htail => hapart hstops tail hne htail (some sign)

end Signed

theorem signLed_of_unsignedAll? {phs inner : List Phrase} (h : unsignedAll? sign phs = some inner)
    (hapart : inner.all (isApart [sign] named) = true) : SignLed sign named (spotAny phs) := by
  have heq : spotAny phs = signed sign (spotAny inner) := by
    funext prev text
    exact spotAny_of_unsignedAll? h prev text
  rw [heq]
  refine signLed_signed isPrefix_of_spotAny ?_
  intro front back hstops rest hrest hsuffix prev
  exact findSome?_congr fun ph hph =>
    at?_of_isApart (List.all_eq_true.mp hapart ph hph) hstops hsuffix hrest prev

end Phrases

theorem SignLed.isSome_blank_append {sign : Char} {named : Bool} {at? : Spotter}
    (h : SignLed sign named at?) {blanks : List Char}
    (hblanks : ∀ c ∈ blanks, Unicode.isBlank c = true) (text : List Char) :
    (at? none (blanks ++ text)).isSome = (at? none text).isSome := by
  induction blanks with
  | nil => rfl
  | cons c blanks ih =>
      obtain ⟨hc, hrest⟩ := List.forall_mem_cons.mp hblanks
      rw [List.cons_append, h.blank _ hc, Option.isSome_map, ih hrest]

/-- Whether a function drops the signs that are spotted. -/
structure Sweeps (sign : Char) (named : Bool) (at? : Spotter)
    (sweep : List Char → List Char) : Prop where
  led : SignLed sign named at?
  rewrites : ∀ text, Rewrites at? none text (sweep text)

namespace Sweeps

variable {sign : Char} {named : Bool} {at? : Spotter} {sweep : List Char → List Char}

theorem eq_of_rewrites (h : Sweeps sign named at? sweep) (prev : Option Char)
    {text new : List Char} (hnew : Rewrites at? prev text new) : sweep text = new := by
  have hstart : Rewrites at? none text new := hnew.of_start (h.led.blind prev text).symm
  exact (h.rewrites text).eq hstart

theorem rewrites_behind (h : Sweeps sign named at? sweep) (prev : Option Char)
    (text : List Char) : Rewrites at? prev text (sweep text) :=
  (h.rewrites text).of_start (h.led.blind prev text)

theorem nil (h : Sweeps sign named at? sweep) : sweep [] = [] := h.eq_of_rewrites none .nil

theorem keep (h : Sweeps sign named at? sweep) {c : Char} {text : List Char}
    (hmissed : at? none (c :: text) = none) : sweep (c :: text) = c :: sweep text :=
  h.eq_of_rewrites none (.keep hmissed (h.rewrites_behind _ text))

theorem swap (h : Sweeps sign named at? sweep) {taken out rest : List Char}
    (hfound : at? none (taken ++ rest) = some (taken, out)) :
    sweep (taken ++ rest) = out ++ sweep rest := by
  obtain ⟨hne, -⟩ := h.led.lawful hfound
  exact h.eq_of_rewrites none (.swap hne hfound (h.rewrites_behind _ rest))

/-- A blank goes together with a sign behind it. -/
theorem blank_cons (h : Sweeps sign named at? sweep) {c : Char} (hc : Unicode.isBlank c = true)
    (text : List Char) :
    sweep (c :: text) = (if (at? none text).isSome then [] else [c]) ++ sweep text := by
  have hstep := h.led.blank text hc
  cases hfound : at? none text with
  | none =>
      rw [hfound, Option.map_none] at hstep
      rw [h.keep hstep]
      rfl
  | some found =>
      obtain ⟨taken, out⟩ := found
      obtain ⟨-, rest, rfl⟩ := h.led.lawful hfound
      rw [hfound, Option.map_some, ← List.cons_append] at hstep
      rw [← List.cons_append, h.swap hstep, h.swap hfound]
      rfl

/-- Blanks go together with a sign behind them. -/
theorem blank_append (h : Sweeps sign named at? sweep) {blanks : List Char}
    (hblanks : ∀ c ∈ blanks, Unicode.isBlank c = true) (text : List Char) :
    sweep (blanks ++ text) = (if (at? none text).isSome then [] else blanks) ++ sweep text := by
  induction blanks with
  | nil => simp
  | cons c blanks ih =>
      obtain ⟨hc, hrest⟩ := List.forall_mem_cons.mp hblanks
      rw [List.cons_append, h.blank_cons hc, h.led.isSome_blank_append hrest, ih hrest]
      cases (at? none text).isSome <;> rfl

theorem blanks (h : Sweeps sign named at? sweep) {blanks : List Char}
    (hblanks : ∀ c ∈ blanks, Unicode.isBlank c = true) : sweep blanks = blanks := by
  have hlawful : at?.Lawful := h.led.lawful
  have hnone := hlawful.nil none
  simpa [hnone, h.nil] using h.blank_append hblanks []

theorem append (h : Sweeps sign named at? sweep) {front back : List Char}
    (hstops : Stops [sign] named front back) :
    sweep (front ++ back) = sweep front ++ sweep back := by
  refine h.eq_of_rewrites none ((h.rewrites front).append ?_ (h.rewrites_behind _ back))
  intro passed rest hparts hne
  have hsuffix : rest <:+ front := ⟨passed, hparts.symm⟩
  rw [h.led.blind, h.led.blind _ rest, h.led.apart hstops rest hne hsuffix]

end Sweeps

namespace Standard

/-- Whether an entry drops a sign, and goes over no cut but behind one. -/
def isSweeping (sign : Char) (named : Bool) (pattern template : List Char) : Bool :=
  (phrases? pattern template).any fun phs =>
    (unsignedAll? sign phs).any fun inner => inner.all (isApart [sign] named)

theorem exists_sweeps {sign : Char} {named : Bool} {pattern template : List Char}
    (h : isSweeping sign named pattern template = true) :
    ∃ at?, Sweeps sign named at? (replaceWith pattern template) := by
  obtain ⟨phs, hphrases, h⟩ := (Option.any_eq_true _ _).mp h
  obtain ⟨inner, hinner, hapart⟩ := (Option.any_eq_true _ _).mp h
  have hled := signLed_of_unsignedAll? hinner hapart
  exact ⟨spotAny phs, hled, rewrites_of_phrases? hphrases hled.lawful⟩

/-- What the rule for references takes. -/
def referencing : List Phrase :=
  [⟨[.many .blank, .one (.one '&'), .many (.one '&'), .many .blank, .look .textEnd], [], []⟩]

/-- What the rule for references takes behind the marks. -/
def blanksAtEnd : List Phrase := [⟨[.many .blank, .look .textEnd], [], []⟩]

theorem unsignedAll?_referencing : unsignedAll? '&' referencing = some blanksAtEnd := by
  decide +kernel

theorem spot_blanksAtEnd {prev : Option Char} {text taken out : List Char}
    (h : spotAny blanksAtEnd prev text = some (taken, out)) :
    taken = text ∧ out = [] ∧ ∀ c ∈ text, Unicode.isBlank c = true := by
  obtain ⟨ph, hph, hat⟩ := spotAny_eq_some h
  obtain rfl := List.mem_singleton.mp hph
  obtain ⟨first, hfirst, hat⟩ := Option.bind_eq_some_iff.mp hat
  obtain ⟨second, hsecond, heq⟩ := Option.map_eq_some_iff.mp hat
  obtain rfl := Option.some.inj hsecond
  obtain ⟨rfl, rfl⟩ := Prod.mk.inj heq
  obtain ⟨last, hlast, rfl⟩ := Option.map_eq_some_iff.mp hfirst
  obtain ⟨hend, hlast⟩ := Option.ite_none_right_eq_some.mp hlast
  obtain rfl := Option.some.inj hlast
  have hnil : text.dropWhile Unicode.isBlank = [] := List.isEmpty_iff.mp hend
  have hall : text.takeWhile Unicode.isBlank = text := by
    have hparts := List.takeWhile_append_dropWhile (p := Unicode.isBlank) (l := text)
    rwa [hnil, List.append_nil] at hparts
  have hset : CharSet.blank.contains = Unicode.isBlank := rfl
  refine ⟨?_, rfl, List.takeWhile_eq_self_iff.mp hall⟩
  simp only [hset, hall, List.append_nil]

/-- The marks of a reference are taken with all blanks around them, and nothing behind. -/
theorem spot_referencing {prev : Option Char} {text taken out : List Char}
    (h : spotAny referencing prev text = some (taken, out)) :
    taken = text ∧ out = [] ∧ ∀ c ∈ text, Unicode.isBlank c = true ∨ c = '&' := by
  rw [spotAny_of_unsignedAll? unsignedAll?_referencing] at h
  obtain ⟨gap, signs, behind, found, hgap, hsigns, rfl, rfl, hfound⟩ := exists_of_signed h
  obtain ⟨rfl, rfl, hbehind⟩ := spot_blanksAtEnd hfound
  refine ⟨rfl, rfl, ?_⟩
  rw [List.forall_mem_append, List.forall_mem_cons, List.forall_mem_append]
  exact ⟨fun c hc => Or.inl (hgap c hc), Or.inr rfl, fun c hc => Or.inr (hsigns c hc),
    fun c hc => Or.inl (hbehind c hc)⟩

/-- Drops the marks of a reference. -/
@[irreducible] def unreferenced (text : List Char) : List Char :=
  replaceWith "\\s*&+\\s*$".toList "".toList text

/-- Drops the marks of pointers that are constant. -/
@[irreducible] def unpinned (text : List Char) : List Char :=
  replaceWith "\\s*\\*+\\s*const\\b".toList "".toList text

/-- Drops the marks of pointers at the end of a type or of an argument. -/
@[irreducible] def unpointed (text : List Char) : List Char :=
  replaceWith "\\s*\\*+(\\s*(?:[>,]|$))".toList "$1".toList text

theorem exists_sweeps_unpinned : ∃ at?, Sweeps '*' true at? unpinned := by
  have hentry : isSweeping '*' true "\\s*\\*+\\s*const\\b".toList "".toList = true := by
    decide +kernel
  obtain ⟨at?, hled, hrewrites⟩ := exists_sweeps hentry
  exact ⟨at?, hled, fun text => unpinned.eq_1 text ▸ hrewrites text⟩

theorem exists_sweeps_unpointed : ∃ at?, Sweeps '*' false at? unpointed := by
  have hentry : isSweeping '*' false "\\s*\\*+(\\s*(?:[>,]|$))".toList "$1".toList = true := by
    decide +kernel
  obtain ⟨at?, hled, hrewrites⟩ := exists_sweeps hentry
  exact ⟨at?, hled, fun text => unpointed.eq_1 text ▸ hrewrites text⟩

theorem sweeps_unreferenced : Sweeps '&' true (spotAny referencing) unreferenced := by
  have hphrases : phrases? "\\s*&+\\s*$".toList "".toList = some referencing := by decide +kernel
  have hled : SignLed '&' true (spotAny referencing) :=
    signLed_of_unsignedAll? unsignedAll?_referencing (by decide +kernel)
  refine ⟨hled, fun text => ?_⟩
  rw [unreferenced]
  exact rewrites_of_phrases? hphrases hled.lawful text

/-- Where the marks of a reference begin, the text ends. -/
theorem unreferenced_eq_nil {text : List Char}
    (h : (spotAny referencing none text).isSome = true) : unreferenced text = [] := by
  obtain ⟨⟨taken, out⟩, hfound⟩ := Option.isSome_iff_exists.mp h
  obtain ⟨rfl, rfl, -⟩ := spot_referencing hfound
  have hwhole : spotAny referencing none (taken ++ []) = some (taken, []) := by
    rwa [List.append_nil]
  have hswap := sweeps_unreferenced.swap hwhole
  rwa [List.append_nil, sweeps_unreferenced.nil] at hswap

/-- Only a text that ends with the mark of a reference has one dropped. -/
theorem unreferenced_eq_self {text : List Char}
    (h : ∀ c ∈ text.getLast?, Unicode.isBlank c = false ∧ c ≠ '&') : unreferenced text = text := by
  rcases (sweeps_unreferenced.rewrites text).first with
    heq | ⟨front, taken, back, out, behind, rfl, hfound, hne, -⟩
  · exact heq
  · obtain ⟨-, -, hall⟩ := spot_referencing hfound
    have hnonempty : taken ++ back ≠ [] := List.append_ne_nil_of_left_ne_nil hne back
    have hlast := List.getLast?_eq_some_getLast hnonempty
    rw [List.getLast?_append_of_ne_nil front hnonempty] at h
    obtain ⟨hblank, hsign⟩ := h _ hlast
    rcases hall _ (List.getLast_mem hnonempty) with hc | hc
    · rw [hc] at hblank
      cases hblank
    · exact absurd hc hsign

end Standard

end ClassSkeleton.Rules
