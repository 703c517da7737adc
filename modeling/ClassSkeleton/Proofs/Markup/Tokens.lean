import ClassSkeleton.Proofs.Markup.Escaping
import ClassSkeleton.Proofs.Markup.TagText
import ClassSkeleton.Proofs.Text.Occurrence
import ClassSkeleton.Unicode.CharClass

namespace ClassSkeleton.Markup

/-!
# Markup as tokens

Markup is a list of tags and texts. Tags may be put in place of others, texts in place of tags,
and texts of blanks may be left out: then no sign of the texts that is not blank is lost, and no
qualifier comes together that did not stand in the texts before, blank ones left out.
-/

open Text

inductive Token where
  | tag (body : List Char)
  | text (signs : List Char)
  deriving DecidableEq, Repr

namespace Token

def spelling : Token → List Char
  | tag body => '<' :: (body ++ ['>'])
  | text signs => signs

def inside : Token → List Char
  | tag body => body
  | text signs => signs

/-- What stands outside tags. -/
def signs : Token → List Char
  | tag _ => []
  | text signs => signs

end Token

def isGap (signs : List Char) : Bool := signs.all Unicode.isBlank

/-- What stands outside tags, less the texts of blanks only. -/
def Token.solid : Token → List Char
  | .tag _ => []
  | .text signs => if isGap signs then [] else signs

def spell (z : List Token) : List Char := z.flatMap Token.spelling

def signs (z : List Token) : List Char := z.flatMap Token.signs

def solid (z : List Token) : List Char := z.flatMap Token.solid

def ink (text : List Char) : List Char := text.filter fun c => !Unicode.isBlank c

section Views

variable (z y : List Token)

@[simp] theorem spell_nil : spell [] = [] := rfl
@[simp] theorem signs_nil : signs [] = [] := rfl
@[simp] theorem solid_nil : solid [] = [] := rfl

theorem spell_cons (t : Token) : spell (t :: z) = t.spelling ++ spell z := rfl
theorem signs_cons (t : Token) : signs (t :: z) = t.signs ++ signs z := rfl
theorem solid_cons (t : Token) : solid (t :: z) = t.solid ++ solid z := rfl

@[simp] theorem spell_text (s : List Char) : spell (.text s :: z) = s ++ spell z := rfl

@[simp] theorem spell_tag (body : List Char) :
    spell (.tag body :: z) = '<' :: (body ++ '>' :: spell z) := by
  simp [spell_cons, Token.spelling]

@[simp] theorem signs_text (s : List Char) : signs (.text s :: z) = s ++ signs z := rfl
@[simp] theorem signs_tag (body : List Char) : signs (.tag body :: z) = signs z := rfl

@[simp] theorem spell_append : spell (z ++ y) = spell z ++ spell y := List.flatMap_append
@[simp] theorem signs_append : signs (z ++ y) = signs z ++ signs y := List.flatMap_append

@[simp] theorem ink_append (text more : List Char) : ink (text ++ more) = ink text ++ ink more :=
  List.filter_append text more

theorem ink_of_isGap {text : List Char} (h : isGap text = true) : ink text = [] := by
  rw [ink, List.filter_eq_nil_iff]
  intro c hc
  simpa using List.all_eq_true.mp h c hc

theorem signs_sublist_spell : (signs z).Sublist (spell z) := by
  induction z with
  | nil => exact List.Sublist.refl []
  | cons t z ih =>
      cases t with
      | tag body => exact (List.nil_sublist _).append ih
      | text signs => exact (List.Sublist.refl signs).append ih

end Views

/-- The qualifier in front of the names of the standard library. -/
def qualifier : List Char := ['s', 't', 'd', ':', ':']

theorem not_isBlank_of_mem_qualifier {c : Char} (h : c ∈ qualifier) :
    Unicode.isBlank c = false := by
  have hall : qualifier.all (fun c => !Unicode.isBlank c) = true := by decide +kernel
  simpa using List.all_eq_true.mp hall c h

theorem qualifier_infix_of_gap {gap : List Char} (hgap : isGap gap = true) {front back : List Char}
    (h : qualifier <:+: front ++ (gap ++ back)) : qualifier <:+: front ++ back := by
  induction gap generalizing front with
  | nil => exact h
  | cons c gap ih =>
      obtain ⟨hc, hrest⟩ := (Bool.and_eq_true _ _).mp hgap
      have hnot : c ∉ qualifier := fun hmem => by
        rw [not_isBlank_of_mem_qualifier hmem] at hc
        cases hc
      rcases (infix_append_cons_iff hnot front (gap ++ back)).mp h with hfront | hback
      · exact hfront.trans (List.prefix_append front back).isInfix
      · have hbehind : qualifier <:+: [] ++ back := ih hrest hback
        exact hbehind.trans (List.suffix_append front back).isInfix

/-- A qualifier does not go over blanks, so texts of blanks may be left out. -/
theorem qualifier_infix_solid {front : List Char} {z : List Token}
    (h : qualifier <:+: front ++ signs z) : qualifier <:+: front ++ solid z := by
  induction z generalizing front with
  | nil => exact h
  | cons t z ih =>
      cases t with
      | tag body => exact ih h
      | text signs =>
          rw [solid_cons, Token.solid]
          split
          · next hgap => exact ih (qualifier_infix_of_gap hgap h)
          · rw [← List.append_assoc]
            exact ih (by rwa [List.append_assoc])

/-- What may be put in place of a tag: it brings no bracket and no colon, and neither end of it is
a part of a qualifier. -/
structure Apart (text : List Char) : Prop where
  noAngle : ∀ c ∈ text, c ≠ '<' ∧ c ≠ '>'
  noColon : ':' ∉ text
  first : ∀ c ∈ text.head?, c ∉ qualifier
  last : ∀ c ∈ text.getLast?, c ∉ qualifier

/-- Whether a text may be put in place of a tag, as it can be computed. -/
def standsApart (text : List Char) : Bool :=
  (text.all fun c => c != '<' && c != '>') && !text.contains ':' &&
    (text.head?.all fun c => !qualifier.contains c) &&
      text.getLast?.all fun c => !qualifier.contains c

theorem apart_of_standsApart {text : List Char} (h : standsApart text = true) : Apart text := by
  simp only [standsApart, Bool.and_eq_true, List.all_eq_true, bne_iff_ne, Bool.not_eq_true',
    List.contains_eq_mem, decide_eq_false_iff_not, Option.all_eq_true] at h
  obtain ⟨⟨⟨hangle, hcolon⟩, hfirst⟩, hlast⟩ := h
  exact ⟨hangle, hcolon, hfirst, hlast⟩

theorem Apart.nil : Apart [] := ⟨by simp, by simp, by simp, by simp⟩

theorem Apart.not_occurs {text front back : List Char} (h : Apart text)
    (hnone : ¬ qualifier <:+: front ++ back) : ¬ qualifier <:+: front ++ (text ++ back) := by
  have hfront : ¬ qualifier <:+: front := fun hoccurs =>
    hnone (hoccurs.trans (List.prefix_append front back).isInfix)
  have hback : ¬ qualifier <:+: back := fun hoccurs =>
    hnone (hoccurs.trans (List.suffix_append front back).isInfix)
  rcases text with _ | ⟨c, text⟩
  · exact hnone
  · rw [List.cons_append, infix_append_cons_iff (h.first c rfl), not_or]
    refine ⟨hfront, ?_⟩
    rcases List.eq_nil_or_concat' text with rfl | ⟨init, d, rfl⟩
    · exact hback
    · have hlast : (c :: (init ++ [d])).getLast? = some d := by
        rw [← List.cons_append, List.getLast?_concat]
      have hd : d ∉ qualifier := h.last d hlast
      rw [List.append_assoc, List.singleton_append, infix_append_cons_iff hd, not_or]
      refine ⟨fun hoccurs => h.noColon ?_, hback⟩
      have hcolon : ':' ∈ init := hoccurs.subset (by decide)
      simp [hcolon]

def formulaName : List Char := ['f', 'o', 'r', 'm', 'u', 'l', 'a']

/-- The inside of a tag. It has no brackets, its quotes come in pairs, and the tag is neither that
of a formula nor the one that ends it. -/
structure IsBody (body : List Char) : Prop where
  noAngle : ∀ c ∈ body, c ≠ '<' ∧ c ≠ '>'
  paired : body.count '"' % 2 = 0
  notFormula : ∀ c rest, body = formulaName ++ c :: rest → Unicode.isBlank c = false
  notEnd : body ≠ '/' :: formulaName

def Token.Sound : Token → Prop
  | tag body => IsBody body
  | text signs => ∀ c ∈ signs, c ≠ '<' ∧ c ≠ '>'

def Sound (z : List Token) : Prop := ∀ t ∈ z, t.Sound

/-- Tags become other tags or texts, and texts of blanks go. -/
inductive Edits : List Token → List Token → Prop
  | nil : Edits [] []
  | keep (t : Token) {z y : List Token} (rest : Edits z y) : Edits (t :: z) (t :: y)
  | swap (body : List Char) {other : List Char} (sound : IsBody other) {z y : List Token}
      (rest : Edits z y) : Edits (.tag body :: z) (.tag other :: y)
  | write (body : List Char) {text : List Char} (apart : Apart text) {z y : List Token}
      (rest : Edits z y) : Edits (.tag body :: z) (.text text :: y)
  | close {gap : List Char} (blank : isGap gap = true) {z y : List Token} (rest : Edits z y) :
      Edits (.text gap :: z) y

namespace Edits

variable {z y : List Token}

theorem refl (z : List Token) : Edits z z := by
  induction z with
  | nil => exact .nil
  | cons t z ih => exact .keep t ih

theorem append {others more : List Token} (h : Edits z y) (hmore : Edits others more) :
    Edits (z ++ others) (y ++ more) := by
  induction h with
  | nil => exact hmore
  | keep t _ ih => exact .keep t ih
  | swap body sound _ ih => exact .swap body sound ih
  | write body apart _ ih => exact .write body apart ih
  | close blank _ ih => exact .close blank ih

theorem close_all {gaps : List Token} (h : ∀ t ∈ gaps, ∃ gap, t = .text gap ∧ isGap gap = true)
    (hrest : Edits z y) : Edits (gaps ++ z) y := by
  induction gaps with
  | nil => exact hrest
  | cons t gaps ih =>
      obtain ⟨⟨gap, rfl, hgap⟩, hgaps⟩ := List.forall_mem_cons.mp h
      exact .close hgap (ih hgaps)

theorem sound (h : Edits z y) (hz : Sound z) : Sound y := by
  induction h with
  | nil => exact hz
  | keep t _ ih =>
      obtain ⟨ht, hrest⟩ := List.forall_mem_cons.mp hz
      exact List.forall_mem_cons.mpr ⟨ht, ih hrest⟩
  | swap body sound _ ih =>
      exact List.forall_mem_cons.mpr ⟨sound, ih (List.forall_mem_cons.mp hz).2⟩
  | write body apart _ ih =>
      exact List.forall_mem_cons.mpr ⟨apart.noAngle, ih (List.forall_mem_cons.mp hz).2⟩
  | close blank _ ih => exact ih (List.forall_mem_cons.mp hz).2

/-- No sign is lost that is not blank. -/
theorem ink_sublist (h : Edits z y) : (ink (signs z)).Sublist (ink (signs y)) := by
  induction h with
  | nil => exact List.Sublist.refl _
  | keep t _ ih =>
      rw [signs_cons, signs_cons, ink_append, ink_append]
      exact (List.Sublist.refl _).append ih
  | swap body sound _ ih => exact ih
  | write body apart _ ih =>
      rw [signs_cons, signs_cons, ink_append, ink_append]
      exact (List.nil_sublist _).append ih
  | close blank _ ih =>
      rw [signs_cons, ink_append, Token.signs, ink_of_isGap blank]
      exact ih

/-- No qualifier comes together. -/
theorem not_occurs (h : Edits z y) {front : List Char}
    (hnone : ¬ qualifier <:+: front ++ solid z) : ¬ qualifier <:+: front ++ solid y := by
  induction h generalizing front with
  | nil => exact hnone
  | keep t _ ih =>
      rw [solid_cons, ← List.append_assoc] at hnone ⊢
      exact ih hnone
  | swap body sound _ ih => exact ih hnone
  | @write body text apart _ _ _ ih =>
      rw [solid_cons, Token.solid]
      split
      · exact ih hnone
      · exact apart.not_occurs (ih hnone)
  | close blank _ ih =>
      rw [solid_cons, Token.solid, if_pos blank] at hnone
      exact ih hnone

end Edits

/-- Every opening bracket begins a tag. -/
theorem exists_tag_of_spell {z : List Token} (hz : Sound z) {front back : List Char}
    (h : spell z = front ++ '<' :: back) :
    ∃ before body after, z = before ++ .tag body :: after ∧ spell before = front ∧
      back = body ++ '>' :: spell after := by
  induction z generalizing front with
  | nil => simp at h
  | cons t z ih =>
      obtain ⟨ht, hrest⟩ := List.forall_mem_cons.mp hz
      -- The bracket stands behind the first token, unless it begins that token.
      have hbehind {more : List Char} (hmore : spell z = more ++ '<' :: back)
          (hfront : front = t.spelling ++ more) :
          ∃ before body after, t :: z = before ++ .tag body :: after ∧ spell before = front ∧
            back = body ++ '>' :: spell after := by
        obtain ⟨before, body, after, rfl, rfl, rfl⟩ := ih hrest hmore
        exact ⟨t :: before, body, after, rfl, by rw [spell_cons, hfront], rfl⟩
      cases t with
      | text signs =>
          rw [spell_text] at h
          rcases List.append_eq_append_iff.mp h with ⟨more, hfront, hmore⟩ | ⟨more, hsigns, hback⟩
          · exact hbehind hmore hfront
          · rcases more with _ | ⟨c, more⟩
            · have hmore : spell z = [] ++ '<' :: back := hback.symm
              exact hbehind hmore (by simp [Token.spelling, hsigns])
            · obtain ⟨rfl, -⟩ := List.cons.inj hback
              exact absurd rfl (ht '<' (by rw [hsigns]; simp)).1
      | tag body =>
          rw [spell_tag] at h
          rcases front with _ | ⟨c, front⟩
          · exact ⟨[], body, z, rfl, rfl, (List.cons.inj h).2.symm⟩
          · obtain ⟨rfl, hinside⟩ := List.cons.inj h
            rcases List.append_eq_append_iff.mp hinside with
              ⟨more, hfront, hmore⟩ | ⟨more, hbody, hback⟩
            · rcases more with _ | ⟨c, more⟩
              · exact absurd (List.cons.inj hmore).1 (by decide)
              · obtain ⟨rfl, hspell⟩ := List.cons.inj hmore
                exact hbehind hspell (by simp [Token.spelling, hfront])
            · rcases more with _ | ⟨c, more⟩
              · exact absurd (List.cons.inj hback).1 (by decide)
              · obtain ⟨rfl, -⟩ := List.cons.inj hback
                exact absurd rfl (ht.noAngle '<' (by rw [hbody]; simp)).1

/-- A name that holds no mark of a tag and no blank. -/
def IsPlainName (name : String) : Prop :=
  IsName name ∧ ∀ c ∈ name.toList, Unicode.isBlank c = false

instance (name : String) : Decidable (IsPlainName name) :=
  inferInstanceAs (Decidable (IsName name ∧ ∀ c ∈ name.toList, Unicode.isBlank c = false))

structure Tag.PlainlyNamed (tag : Tag) : Prop where
  name : IsPlainName tag.name
  keys : ∀ pair ∈ tag.attributes, IsPlainName pair.1

theorem IsPlainName.ne_of_mem {name : String} (h : IsPlainName name) {c : Char}
    (hc : c ∈ name.toList) : c ≠ '"' ∧ c ≠ '/' ∧ c ≠ '<' ∧ c ≠ '>' := by
  obtain ⟨-, hdouble, -, -, hslash, hless, hgreater⟩ := isNameChar_iff.mp (h.1.2 c hc)
  exact ⟨hdouble, hslash, hless, hgreater⟩

theorem IsPlainName.count_quote {name : String} (h : IsPlainName name) :
    name.toList.count '"' = 0 :=
  List.count_eq_zero_of_not_mem fun hmem => (h.ne_of_mem hmem).1 rfl

/-- A longer or shorter name than that of a formula does not begin as a formula does. -/
theorem IsPlainName.notFormula {name : String} (h : IsPlainName name) (hname : name ≠ "formula")
    {rest : List Char} (hrest : ∀ c ∈ rest.head?, c ∉ formulaName) {c : Char}
    {more : List Char} (heq : name.toList ++ rest = formulaName ++ c :: more) :
    Unicode.isBlank c = false := by
  have hne : name.toList ≠ formulaName := fun heq => hname (String.toList_inj.mp heq)
  rcases List.append_eq_append_iff.mp heq with ⟨tail, hformula, htail⟩ | ⟨tail, hlonger, htail⟩
  · rcases tail with _ | ⟨d, tail⟩
    · exact absurd (by rw [hformula, List.append_nil]) hne
    · exact absurd (by rw [hformula]; simp) (hrest d (by rw [htail]; rfl))
  · rcases tail with _ | ⟨d, tail⟩
    · exact absurd (by rw [hlonger, List.append_nil]) hne
    · obtain ⟨rfl, -⟩ := List.cons.inj htail
      exact h.2 c (by rw [hlonger]; simp)

namespace Tag.PlainlyNamed

variable {tag : Tag} (h : tag.PlainlyNamed)
include h

theorem noAngle_content : ∀ c ∈ tag.content, c ≠ '<' ∧ c ≠ '>' := by
  intro c hc
  rcases List.mem_append.mp hc with hname | hattributes
  · exact (h.name.ne_of_mem hname).2.2
  · obtain ⟨pair, hpair, hc⟩ := List.mem_flatMap.mp hattributes
    have hvalue (d : Char) (hd : d = '<' ∨ d = '>') : d ∉ escape true pair.2.toList :=
      not_mem_escape (hd.imp_right Or.inl) _
    simp only [attributeText, List.cons_append, List.mem_cons, List.mem_append, List.not_mem_nil,
      or_false] at hc
    rcases hc with rfl | (hkey | rfl | rfl | hvalues) | rfl
    · decide
    · exact ((h.keys pair hpair).ne_of_mem hkey).2.2
    · decide
    · decide
    · exact ⟨fun heq => hvalue c (Or.inl heq) hvalues, fun heq => hvalue c (Or.inr heq) hvalues⟩
    · decide

theorem content_append_ne_end (tail word : List Char) : tag.content ++ tail ≠ '/' :: word := by
  intro heq
  obtain ⟨c, name, hname⟩ := List.exists_cons_of_ne_nil h.name.1.1
  rw [content, hname] at heq
  have hslash : '/' ∈ tag.name.toList := by
    rw [hname, (List.cons.inj heq).1]
    exact List.mem_cons_self
  exact (h.name.ne_of_mem hslash).2.1 rfl

theorem paired_content : tag.content.count '"' % 2 = 0 := by
  have hattributes (pairs : List (String × String))
      (hkeys : ∀ pair ∈ pairs, IsPlainName pair.1) :
      (pairs.flatMap attributeText).count '"' % 2 = 0 := by
    induction pairs with
    | nil => rfl
    | cons pair pairs ih =>
        obtain ⟨hpair, hpairs⟩ := List.forall_mem_cons.mp hkeys
        have hvalue : (escape true pair.2.toList).count '"' = 0 :=
          List.count_eq_zero_of_not_mem (not_mem_escape (Or.inr (Or.inr ⟨rfl, rfl⟩)) _)
        have hone : (attributeText pair).count '"' = 2 := by
          simp [attributeText, hvalue, hpair.count_quote]
        rw [List.flatMap_cons, List.count_append, hone]
        have hrest := ih hpairs
        omega
  rw [content, List.count_append, h.name.count_quote, Nat.zero_add]
  exact hattributes _ h.keys

theorem isBody_content (hname : tag.name ≠ "formula") {tail : List Char}
    (htail : tail = [] ∨ tail = ['/']) : IsBody (tag.content ++ tail) where
  noAngle := by
    intro c hc
    rcases List.mem_append.mp hc with hc | hc
    · exact h.noAngle_content c hc
    · rcases htail with rfl | rfl
      · cases hc
      · obtain rfl := List.mem_singleton.mp hc
        decide
  paired := by
    have hcontent := h.paired_content
    rcases htail with rfl | rfl
    · simpa using hcontent
    · simpa using hcontent
  notFormula := by
    intro c rest heq
    rw [content, List.append_assoc] at heq
    refine h.name.notFormula hname ?_ heq
    intro d hd
    cases hattributes : tag.attributes with
    | nil =>
        rw [hattributes] at hd
        rcases htail with rfl | rfl
        · cases hd
        · obtain rfl := Option.some.inj hd
          decide
    | cons pair pairs =>
        rw [hattributes] at hd
        obtain rfl : ' ' = d := Option.some.inj hd
        decide
  notEnd := h.content_append_ne_end tail _

theorem isBody_end (hname : tag.name ≠ "formula") : IsBody ('/' :: tag.name.toList) where
  noAngle := by
    intro c hc
    rcases List.mem_cons.mp hc with rfl | hc
    · decide
    · exact (h.name.ne_of_mem hc).2.2
  paired := by
    rw [List.count_cons_of_ne (by decide), h.name.count_quote]
  notFormula := by
    intro c rest heq
    exact absurd (List.cons.inj heq).1 (by decide)
  notEnd := by
    intro heq
    exact hname (String.toList_inj.mp (List.cons.inj heq).2)

end Tag.PlainlyNamed

section Escaped

theorem isGap_escapeChar (c : Char) :
    isGap (escapeChar false c) = Unicode.isBlank c := by
  have hmarks : Unicode.isBlank '&' = false ∧ Unicode.isBlank '<' = false ∧
      Unicode.isBlank '>' = false := by decide +kernel
  unfold escapeChar
  split
  · simp [isGap, hmarks]
  · simp [isGap, hmarks]
  · simp [isGap, hmarks]
  · simp [isGap]
  · simp [isGap]

/-- A text is blank as it is written if it is blank. -/
theorem isGap_escape (text : List Char) : isGap (escape false text) = isGap text := by
  induction text with
  | nil => rfl
  | cons c text ih =>
      have happend (first second : List Char) : isGap (first ++ second) =
          (isGap first && isGap second) := List.all_append
      rw [escape_cons, happend, isGap_escapeChar, ih]
      rfl

theorem prefix_of_prefix_escape {word text : List Char} (hword : '&' ∉ word)
    (h : word <+: escape false text) : word <+: text := by
  induction word generalizing text with
  | nil => exact List.nil_prefix
  | cons d word ih =>
      obtain ⟨hd, hrest⟩ := not_or.mp (mt List.mem_cons.mpr hword)
      cases text with
      | nil => exact absurd (List.prefix_nil.mp h) (List.cons_ne_nil d word)
      | cons c text =>
          rw [escape_cons] at h
          have hwritten := written_escapeChar false c
          generalize escapeChar false c = written at h hwritten
          cases hwritten with
          | entity name _ _ => exact absurd (List.cons_prefix_cons.mp h).1.symm hd
          | itself _ _ _ _ =>
              obtain ⟨rfl, hstarts⟩ := List.cons_prefix_cons.mp h
              exact List.cons_prefix_cons.mpr ⟨rfl, ih hrest hstarts⟩

/-- No qualifier comes into being where a text is written. -/
theorem qualifier_infix_of_escape {text : List Char} (h : qualifier <:+: escape false text) :
    qualifier <:+: text := by
  induction text with
  | nil => exact h
  | cons c text ih =>
      have hc := written_escapeChar false c
      rw [escape_cons] at h
      have hrest (hoccurs : qualifier <:+: escape false text) : qualifier <:+: c :: text :=
        (ih hoccurs).trans (List.suffix_cons c text).isInfix
      generalize hwritten : escapeChar false c = written at h hc
      cases hc with
      | entity name letters _ =>
          rw [List.append_assoc, List.singleton_append,
            infix_append_cons_iff (by decide : ';' ∉ qualifier)] at h
          refine hrest (h.resolve_left fun hoccurs => ?_)
          have hcolon : ':' ∈ '&' :: name := hoccurs.subset (by decide)
          rcases List.mem_cons.mp hcolon with heq | hname
          · exact absurd heq (by decide)
          · exact absurd (List.all_eq_true.mp letters _ hname) (by decide)
      | itself _ _ _ _ =>
          rw [List.singleton_append, List.infix_cons_iff] at h
          rcases h with hstarts | hoccurs
          · have hhere : qualifier <+: escape false (c :: text) := by
              rw [escape_cons, hwritten]
              exact hstarts
            exact (prefix_of_prefix_escape (by decide) hhere).isInfix
          · exact hrest hoccurs

end Escaped

namespace Node

mutual

/-- The texts of a tree, in document order. -/
def texts : Node → List String
  | text s => [s]
  | element _ children => allTexts children

def allTexts : List Node → List String
  | [] => []
  | node :: rest => texts node ++ allTexts rest

end

mutual

def tokens : Node → List Token
  | text s => [.text (escape false s.toList)]
  | element tag [] => [.tag (tag.content ++ ['/'])]
  | element tag (child :: rest) =>
    .tag tag.content :: (tokens child ++ allTokens rest) ++ [.tag ('/' :: tag.name.toList)]

def allTokens : List Node → List Token
  | [] => []
  | node :: rest => tokens node ++ allTokens rest

end

mutual

/-- Whether the names of a tree hold no mark of a tag and no blank. -/
def PlainlyNamed : Node → Prop
  | text _ => True
  | element tag children => tag.PlainlyNamed ∧ AllPlainlyNamed children

def AllPlainlyNamed : List Node → Prop
  | [] => True
  | node :: rest => PlainlyNamed node ∧ AllPlainlyNamed rest

end

mutual

theorem spell_tokens : ∀ node : Node, spell node.tokens = node.markup
  | text s => by simp [tokens, markup]
  | element tag [] => by simp [tokens, markup, Tag.text_eq]
  | element tag (child :: rest) => by
    simp [tokens, markup, Tag.text_eq, spell_tokens child, spell_allTokens rest]

theorem spell_allTokens : ∀ nodes : List Node, spell (allTokens nodes) = allMarkup nodes
  | [] => rfl
  | node :: rest => by rw [allTokens, spell_append, spell_tokens node, spell_allTokens rest, allMarkup]

end

mutual

theorem signs_tokens : ∀ node : Node,
    signs node.tokens = node.texts.flatMap fun s => escape false s.toList
  | text s => by simp [tokens, texts]
  | element tag [] => by simp [tokens, texts, allTexts]
  | element tag (child :: rest) => by
    simp [tokens, texts, allTexts, signs_tokens child, signs_allTokens rest]

theorem signs_allTokens : ∀ nodes : List Node,
    signs (allTokens nodes) = (allTexts nodes).flatMap fun s => escape false s.toList
  | [] => rfl
  | node :: rest => by
    rw [allTokens, signs_append, signs_tokens node, signs_allTokens rest, allTexts,
      List.flatMap_append]

end

mutual

theorem sound_tokens : ∀ {node : Node}, node.PlainlyNamed → node.named "formula" = [] →
    Sound node.tokens
  | text s, _, _ => List.forall_mem_singleton.mpr fun c hc =>
    ⟨fun heq => not_mem_escape (Or.inl rfl) s.toList (heq ▸ hc),
      fun heq => not_mem_escape (Or.inr (Or.inl rfl)) s.toList (heq ▸ hc)⟩
  | element tag children, ⟨htag, hchildren⟩, hnamed => by
    rw [named, List.append_eq_nil_iff] at hnamed
    obtain ⟨hroot, hbelow⟩ := hnamed
    have hname : tag.name ≠ "formula" := by
      intro heq
      rw [if_pos heq] at hroot
      cases hroot
    have hinner := sound_allTokens hchildren hbelow
    cases children with
    | nil => exact List.forall_mem_singleton.mpr (htag.isBody_content hname (Or.inr rfl))
    | cons child rest =>
        have hopen : IsBody tag.content := by
          simpa using htag.isBody_content hname (Or.inl rfl)
        refine List.forall_mem_append.mpr ⟨List.forall_mem_cons.mpr ⟨hopen, hinner⟩, ?_⟩
        exact List.forall_mem_singleton.mpr (htag.isBody_end hname)

theorem sound_allTokens : ∀ {nodes : List Node}, AllPlainlyNamed nodes →
    allNamed "formula" nodes = [] → Sound (allTokens nodes)
  | [], _, _ => by
    intro t ht
    cases ht
  | node :: rest, ⟨hnode, hrest⟩, hnamed => by
    rw [allNamed, List.append_eq_nil_iff] at hnamed
    rw [allTokens]
    exact List.forall_mem_append.mpr
      ⟨sound_tokens hnode hnamed.1, sound_allTokens hrest hnamed.2⟩

end

/-- The characters of the texts that are not blank, one text after the other. -/
def solidText (texts : List String) : List Char :=
  (texts.filter fun s => !isGap s.toList).flatMap String.toList

theorem solidText_append (texts others : List String) :
    solidText (texts ++ others) = solidText texts ++ solidText others := by
  simp [solidText]

mutual

theorem solid_tokens : ∀ node : Node, solid node.tokens = escape false (solidText node.texts)
  | text s => by
    rw [tokens, texts, solid_cons, Token.solid, isGap_escape]
    cases hgap : isGap s.toList with
    | true => simp [solidText, hgap]
    | false => simp [solidText, hgap]
  | element tag [] => rfl
  | element tag (child :: rest) => by
    rw [tokens, texts, allTexts, solidText_append, escape_append, ← solid_tokens child,
      ← solid_allTokens rest]
    simp [solid, Token.solid]

theorem solid_allTokens : ∀ nodes : List Node,
    solid (allTokens nodes) = escape false (solidText (allTexts nodes))
  | [] => rfl
  | node :: rest => by
    rw [allTokens, allTexts, solidText_append, escape_append, ← solid_tokens node,
      ← solid_allTokens rest]
    exact List.flatMap_append

end

end Node

end ClassSkeleton.Markup
