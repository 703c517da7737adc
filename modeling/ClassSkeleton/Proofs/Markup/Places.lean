import ClassSkeleton.Proofs.Markup.Tokens

namespace ClassSkeleton.Markup

/-!
# Places in markup

A place in markup lies between tags or in one. Of a tag it is known how its body begins while that
can become one of some words, and from then on whether the place lies in quotes. A text leads from
one place to another if its brackets fit there, and on the way it completes the tags whose bodies
are among the words. From outside to outside this is the same as to be made of whole tags.
-/

/-- The word that the body of a tag is, if it is one. -/
def wordOf (words : List (List Char)) (body : List Char) : List (List Char) :=
  if words.contains body then [body] else []

inductive Place where
  | out
  | name (begun : List Char)
  | other (quoted : Bool)
  deriving DecidableEq, Repr

/-- The place behind a character, and the words that it completes. -/
def Place.step (words : List (List Char)) (c : Char) : Place → Option (Place × List (List Char))
  | out => if c = '<' then some (name [], []) else if c = '>' then none else some (out, [])
  | name begun =>
    if c = '<' then none
    else if c = '>' then some (out, wordOf words begun)
    else if words.any (begun ++ [c]).isPrefixOf then some (name (begun ++ [c]), [])
    else some (other (c = '"'), [])
  | other quoted =>
    if c = '<' then none
    else if c = '>' then if quoted then none else some (out, [])
    else some (other (if c = '"' then !quoted else quoted), [])

/-- Whether a text leads from one place to another, and the words that it completes. -/
inductive Runs (words : List (List Char)) : Place → List Char → Place → List (List Char) → Prop
  | done {p : Place} : Runs words p [] p []
  | step {p q r : Place} {c : Char} {text : List Char} {found more : List (List Char)}
      (head : p.step words c = some (q, found)) (tail : Runs words q text r more) :
      Runs words p (c :: text) r (found ++ more)

namespace Runs

variable {words : List (List Char)} {p q r : Place} {text rest : List Char}
  {found more : List (List Char)}

theorem single {c : Char} (h : p.step words c = some (q, found)) : Runs words p [c] q found := by
  simpa using Runs.step h .done

theorem quiet {c : Char} (head : p.step words c = some (q, []))
    (tail : Runs words q text r more) : Runs words p (c :: text) r more := .step head tail

theorem append (h : Runs words p text q found) (hrest : Runs words q rest r more) :
    Runs words p (text ++ rest) r (found ++ more) := by
  induction h with
  | done => exact hrest
  | step head _ ih =>
      rw [List.append_assoc]
      exact .step head (ih hrest)

theorem split (h : Runs words p (text ++ rest) r found) :
    ∃ q first second, Runs words p text q first ∧ Runs words q rest r second ∧
      found = first ++ second := by
  induction text generalizing p found with
  | nil => exact ⟨p, [], found, .done, h, rfl⟩
  | cons c text ih =>
      cases h with
      | step head tail =>
          obtain ⟨q, first, second, hfirst, hsecond, rfl⟩ := ih tail
          exact ⟨q, _, second, .step head hfirst, hsecond, (List.append_assoc _ _ _).symm⟩

theorem unique (h : Runs words p text q found) (hother : Runs words p text r more) :
    q = r ∧ found = more := by
  induction h generalizing more with
  | done =>
      cases hother
      exact ⟨rfl, rfl⟩
  | step head _ ih =>
      cases hother with
      | step headOther tailOther =>
          obtain ⟨rfl, rfl⟩ := Prod.mk.inj (Option.some.inj (head.symm.trans headOther))
          obtain ⟨rfl, rfl⟩ := ih tailOther
          exact ⟨rfl, rfl⟩

end Runs

/-- Whether brackets stand around tags only, and the quotes in each tag come in pairs. -/
def Token.Whole : Token → Prop
  | tag body => (∀ c ∈ body, c ≠ '<' ∧ c ≠ '>') ∧ body.count '"' % 2 = 0
  | text signs => ∀ c ∈ signs, c ≠ '<' ∧ c ≠ '>'

theorem Token.Whole.notMem_open {body : List Char} (h : (tag body).Whole) : '<' ∉ body :=
  fun hmem => (h.1 '<' hmem).1 rfl

theorem Token.Whole.notMem_close {body : List Char} (h : (tag body).Whole) : '>' ∉ body :=
  fun hmem => (h.1 '>' hmem).2 rfl

def Whole (z : List Token) : Prop := ∀ t ∈ z, t.Whole

def Token.watched (words : List (List Char)) : Token → List (List Char)
  | tag body => wordOf words body
  | text _ => []

/-- The words among the bodies of tags. -/
def watched (words : List (List Char)) (z : List Token) : List (List Char) :=
  z.flatMap (Token.watched words)

theorem watched_cons (words : List (List Char)) (t : Token) (z : List Token) :
    watched words (t :: z) = t.watched words ++ watched words z := rfl

section Tokens

variable {words : List (List Char)}

theorem runs_out_of_noAngle {text : List Char} (h : ∀ c ∈ text, c ≠ '<' ∧ c ≠ '>') :
    Runs words .out text .out [] := by
  induction text with
  | nil => exact .done
  | cons c text ih =>
      obtain ⟨⟨hless, hgreater⟩, hrest⟩ := List.forall_mem_cons.mp h
      exact .quiet (by simp [Place.step, hless, hgreater]) (ih hrest)

/-- Whether the quotes in the rest of a tag fit a place in it. -/
def Place.Closes (rest : List Char) : Place → Prop
  | out => False
  | name _ => rest.count '"' % 2 = 0
  | other quoted => rest.count '"' % 2 = if quoted then 1 else 0

/-- The words that the rest of a tag completes. -/
def Place.completed (words : List (List Char)) (rest : List Char) : Place → List (List Char)
  | name begun => wordOf words (begun ++ rest)
  | _ => []

theorem Place.exists_step_other {c : Char} (hc : c ≠ '<' ∧ c ≠ '>') (quoted : Bool) :
    ∃ q, q ≠ out ∧ (other quoted).step words c = some (q, []) ∧
      ∀ rest, (q.Closes rest ↔ (other quoted).Closes (c :: rest)) ∧
        q.completed words rest = (other quoted).completed words (c :: rest) := by
  refine ⟨other (if c = '"' then !quoted else quoted), by simp, by simp [step, hc], ?_⟩
  intro rest
  refine ⟨?_, rfl⟩
  by_cases hquote : c = '"'
  · subst hquote
    cases quoted <;> simp [Closes, List.count_cons_self] <;> omega
  · simp [Closes, hquote, List.count_cons_of_ne]

theorem Place.exists_step_name (hwords : ∀ word ∈ words, '"' ∉ word) {c : Char}
    (hc : c ≠ '<' ∧ c ≠ '>') (begun : List Char) :
    ∃ q, q ≠ out ∧ (name begun).step words c = some (q, []) ∧
      ∀ rest, (q.Closes rest ↔ (name begun).Closes (c :: rest)) ∧
        q.completed words rest = (name begun).completed words (c :: rest) := by
  by_cases hbegins : words.any (begun ++ [c]).isPrefixOf = true
  · obtain ⟨word, hword, hfits⟩ := List.any_eq_true.mp hbegins
    have hquote : c ≠ '"' := by
      rintro rfl
      exact hwords word hword ((List.isPrefixOf_iff_prefix.mp hfits).subset (by simp))
    refine ⟨name (begun ++ [c]), by simp, by simp [step, hc, hbegins], ?_⟩
    intro rest
    refine ⟨?_, by simp [completed]⟩
    rw [Closes, Closes, List.count_cons_of_ne hquote]
  · have hnone (rest : List Char) : wordOf words (begun ++ c :: rest) = [] := by
      refine if_neg fun hword =>
        hbegins (List.any_eq_true.mpr ⟨_, List.contains_iff_mem.mp hword, ?_⟩)
      rw [List.isPrefixOf_iff_prefix]
      exact ⟨rest, by simp⟩
    refine ⟨other (c = '"'), by simp, by simp [step, hc, hbegins], ?_⟩
    intro rest
    refine ⟨?_, by simp only [completed, hnone]⟩
    by_cases hquote : c = '"'
    · subst hquote
      simp [Closes, List.count_cons_self]
      omega
    · simp [Closes, hquote, List.count_cons_of_ne]

section Quoteless

variable (hwords : ∀ word ∈ words, '"' ∉ word)
include hwords

/-- A character that is no bracket leaves a place in its tag. -/
theorem Place.exists_step {p : Place} (hp : p ≠ out) {c : Char} (hc : c ≠ '<' ∧ c ≠ '>') :
    ∃ q, q ≠ out ∧ p.step words c = some (q, []) ∧
      ∀ rest, (q.Closes rest ↔ p.Closes (c :: rest)) ∧
        q.completed words rest = p.completed words (c :: rest) := by
  cases p with
  | out => exact absurd rfl hp
  | name begun => exact exists_step_name hwords hc begun
  | other quoted => exact exists_step_other hc quoted

theorem runs_rest {p : Place} (hp : p ≠ .out) {rest : List Char}
    (h : ∀ c ∈ rest, c ≠ '<' ∧ c ≠ '>') (hcloses : p.Closes rest) :
    Runs words p (rest ++ ['>']) .out (p.completed words rest) := by
  induction rest generalizing p with
  | nil =>
      cases p with
      | out => exact absurd rfl hp
      | name begun => exact .single (by simp [Place.step, Place.completed])
      | other quoted =>
          cases quoted with
          | false => exact .single (by simp [Place.step, Place.completed])
          | true => simp [Place.Closes] at hcloses
  | cons c rest ih =>
      obtain ⟨hc, hrest⟩ := List.forall_mem_cons.mp h
      obtain ⟨q, hq, hstep, hbehind⟩ := Place.exists_step hwords hp hc
      obtain ⟨hfits, hcompleted⟩ := hbehind rest
      rw [← hcompleted]
      exact .quiet hstep (ih hq hrest (hfits.mpr hcloses))

theorem runs_tag {body : List Char} (h : (Token.tag body).Whole) :
    Runs words .out ('<' :: (body ++ ['>'])) .out (wordOf words body) := by
  have hname : Place.name [] ≠ .out := nofun
  exact .quiet rfl (runs_rest hwords hname h.1 h.2)

/-- Whole tokens lead from outside to outside and complete the words among them. -/
theorem runs_spell {z : List Token} (hz : Whole z) :
    Runs words .out (spell z) .out (watched words z) := by
  induction z with
  | nil => exact .done
  | cons t z ih =>
      obtain ⟨ht, hrest⟩ := List.forall_mem_cons.mp hz
      have hone : Runs words .out t.spelling .out (t.watched words) := by
        cases t with
        | text signs => exact runs_out_of_noAngle ht
        | tag body => exact runs_tag hwords ht
      exact hone.append (ih hrest)

/-- A text that leads out of a tag has the bracket that ends it. -/
theorem exists_rest_of_runs {p q : Place} {text : List Char} {found : List (List Char)}
    (h : Runs words p text q found) (hq : q = .out) (hp : p ≠ .out) :
    ∃ rest more later, text = rest ++ '>' :: more ∧ (∀ c ∈ rest, c ≠ '<' ∧ c ≠ '>') ∧
      p.Closes rest ∧ Runs words .out more .out later := by
  induction h with
  | done => exact absurd hq hp
  | @step p q r c text found more head tail ih =>
      subst hq
      by_cases hc : c ≠ '<' ∧ c ≠ '>'
      · obtain ⟨s, hs, hstep, hbehind⟩ := Place.exists_step hwords hp hc
        obtain ⟨rfl, -⟩ := Prod.mk.inj (Option.some.inj (head.symm.trans hstep))
        obtain ⟨rest, after, later, rfl, hrest, hfits, hafter⟩ := ih rfl hs
        exact ⟨c :: rest, after, later, rfl, List.forall_mem_cons.mpr ⟨hc, hrest⟩,
          (hbehind rest).1.mp hfits, hafter⟩
      · have hgreater : c = '>' ∧ q = .out ∧ p.Closes [] := by
          rcases Classical.not_and_iff_not_or_not.mp hc with hless | hgreater
          · obtain rfl := not_not.mp hless
            cases p <;> simp [Place.step] at head hp
          · obtain rfl := not_not.mp hgreater
            cases p <;> simp_all [Place.step, Place.Closes]
        obtain ⟨rfl, rfl, hcloses⟩ := hgreater
        exact ⟨[], text, more, rfl, by simp, hcloses, tail⟩

/-- A text that leads from outside to outside is made of whole tokens. -/
theorem exists_tokens_of_runs {text : List Char} {found : List (List Char)}
    (h : Runs words .out text .out found) :
    ∃ z, Whole z ∧ spell z = text ∧ watched words z = found := by
  have htokens : ∃ z, Whole z ∧ spell z = text := by
    induction hlength : text.length using Nat.strong_induction_on generalizing text found with
    | h n ih =>
        cases h with
        | done => exact ⟨[], by simp [Whole], rfl⟩
        | @step _ q _ c rest first more head tail =>
            by_cases hless : c = '<'
            · subst hless
              obtain ⟨rfl, -⟩ := Prod.mk.inj (Option.some.inj head)
              obtain ⟨body, after, later, rfl, hbody, hpaired, hafter⟩ :=
                exists_rest_of_runs hwords tail rfl nofun
              have hshort : after.length < n := by
                simp only [List.length_cons, List.length_append] at hlength
                omega
              obtain ⟨z, hz, rfl⟩ := ih after.length hshort hafter rfl
              refine ⟨.tag body :: z, List.forall_mem_cons.mpr ⟨⟨hbody, hpaired⟩, hz⟩, ?_⟩
              exact spell_tag z body
            · have hgreater : c ≠ '>' := by
                rintro rfl
                simp [Place.step] at head
              have hstep : Place.out.step words c = some (.out, []) := by
                simp [Place.step, hless, hgreater]
              obtain ⟨rfl, -⟩ := Prod.mk.inj (Option.some.inj (head.symm.trans hstep))
              have hshort : rest.length < n := by
                simp only [List.length_cons] at hlength
                omega
              obtain ⟨z, hz, rfl⟩ := ih rest.length hshort tail rfl
              refine ⟨.text [c] :: z, List.forall_mem_cons.mpr ⟨?_, hz⟩, rfl⟩
              exact List.forall_mem_singleton.mpr ⟨hless, hgreater⟩
  obtain ⟨z, hz, rfl⟩ := htokens
  exact ⟨z, hz, rfl, ((runs_spell hwords hz).unique h).2⟩

end Quoteless

end Tokens

end ClassSkeleton.Markup
