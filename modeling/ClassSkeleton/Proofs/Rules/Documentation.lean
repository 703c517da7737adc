import ClassSkeleton.Proofs.Rules.Entries
import ClassSkeleton.Proofs.Rules.Retagging
import Mathlib.Data.List.TakeWhile

namespace ClassSkeleton.Rules

/-!
# Documentation keeps its text

Of the rules for documentation, most edit tags. Those for formulas find nothing where there are
none, and those for qualified names act inside tags where no qualifier stands in the texts, or
comes to stand there when tags and the blanks between them go.
-/

open Pattern Text
open Markup hiding Node

section Formulas

variable {x : Node} {z : List Token}

/-- What may stand in front of the tag that ends a formula. -/
def formulaClosers : List (List Char) := [['$'], ['\\', ']']]

/-- Whether the node takes the tag that begins a formula, or the one that ends it. -/
def seeksFormula (x : Node) : Bool :=
  ((Node.behind? ('<' :: formulaName) x.heads.1).any fun sets =>
      match sets with
      | .blank :: _ => true
      | _ => false) ||
    formulaClosers.any fun closer => x.leads (closer ++ '<' :: '/' :: (formulaName ++ ['>']))

/-- What follows an opening bracket belongs to the tag up to the bracket that ends it. -/
theorem exists_body_of_spell (hz : Sound z) {front word more : List Char} (hword : '>' ∉ word)
    (h : spell z = front ++ '<' :: (word ++ more)) :
    ∃ rest after, IsBody (word ++ rest) ∧ more = rest ++ '>' :: after := by
  obtain ⟨_, body, after, rfl, -, hbody⟩ := exists_tag_of_spell hz h
  obtain ⟨rest, rfl, hmore⟩ := Node.exists_rest hbody fun tail heq => hword (by rw [heq]; simp)
  exact ⟨rest, spell after, hz (.tag _) (by simp), hmore⟩

theorem not_hits_of_seeksFormula (h : seeksFormula x = true) (hz : Sound z)
    (before : List Char) : ¬ HitsFrom x.matchAt? before (spell z) := by
  rintro ⟨passed, found, hspell, hfind⟩
  obtain ⟨m, hm⟩ := Option.isSome_iff_exists.mp hfind
  obtain ⟨text, rest, recorded, rfl, -, htakes⟩ := Node.exists_takes_of_matchAt? hm
  rcases (Bool.or_eq_true _ _).mp h with hopens | hcloses
  · obtain ⟨sets, hsets, hblank⟩ := (Option.any_eq_true _ _).mp hopens
    obtain ⟨front, tail, rfl, hfront, -⟩ := htakes.heads
    obtain ⟨more, rfl, hmore⟩ := Node.exists_of_behind? hsets hfront
    split at hblank
    · cases hmore with
      | @cons _ c _ more mem _ =>
          have hc : Unicode.isBlank c = true := mem
          have hopen : spell z =
              passed ++ '<' :: ((formulaName ++ [c]) ++ (more ++ (tail ++ rest))) := by
            simpa using hspell
          have hword : '>' ∉ formulaName ++ [c] := by
            rw [List.mem_append, not_or, List.mem_singleton]
            refine ⟨by decide, ?_⟩
            rintro rfl
            exact absurd hc (by decide +kernel)
          obtain ⟨inside, _, hbody, -⟩ := exists_body_of_spell hz hword hopen
          have hnot := hbody.notFormula c inside (by simp)
          rw [hc] at hnot
          cases hnot
    · cases hblank
  · obtain ⟨closer, -, hleads⟩ := List.any_eq_true.mp hcloses
    obtain ⟨more, rfl⟩ := htakes.leads hleads
    have hclose : spell z =
        (passed ++ closer) ++ '<' :: (('/' :: formulaName) ++ ('>' :: (more ++ rest))) := by
      simpa using hspell
    obtain ⟨inside, _, hbody, hinside⟩ := exists_body_of_spell hz (by decide) hclose
    rcases inside with _ | ⟨c, inside⟩
    · exact hbody.notEnd (List.append_nil _)
    · obtain ⟨rfl, -⟩ := List.cons.inj hinside
      exact (hbody.noAngle '>' (by simp)).2 rfl

end Formulas

section Names

/-- Whether a finder takes nothing but what begins with a qualifier and stays in a tag, and what
is put in its place brings no bracket. -/
structure Renames (find : Finder) (expand : Match → List Char) : Prop where
  found : ∀ {before after m}, find before after = some m → ∃ text rest, after = text ++ rest ∧
    m.length = text.length ∧ qualifier <+: text ∧ '>' ∉ text ∧
      ∀ c ∈ expand m, c ∉ ['<', '>'] ∨ c ∈ text

/-- Whether an entry rewrites qualified names only. -/
def renamesBy (x : Node) (parts : List Part) : Bool :=
  x.leads qualifier && x.avoids ['>'] && parts.all (clearOf ['<', '>'])

theorem renames_of_renamesBy {x : Node} {parts : List Part} (h : renamesBy x parts = true)
    (names : List (String × Nat)) : Renames x.matchAt? (Template.expand names parts) where
  found := by
    intro before after m hm
    simp only [renamesBy, Bool.and_eq_true] at h
    obtain ⟨⟨hleads, havoids⟩, hclear⟩ := h
    obtain ⟨text, rest, recorded, rfl, rfl, htakes⟩ := Node.exists_takes_of_matchAt? hm
    obtain ⟨more, hmore⟩ := htakes.leads hleads
    refine ⟨text, rest, rfl, rfl, ⟨more, hmore.symm⟩, ?_, fun c hc => ?_⟩
    · exact fun hc => htakes.notMem havoids _ hc (List.mem_singleton_self _)
    · refine (notMem_or_of_mem_expand hclear hc).imp_right ?_
      rintro ⟨entry, hentry, hc⟩
      exact htakes.mem_of_recorded entry hentry c hc

variable {find : Finder} {expand : Match → List Char}

namespace Renames

theorem eq_none (h : Renames find expand) {before after : List Char}
    (hnot : ¬ qualifier <+: after) : find before after = none := by
  rw [Option.eq_none_iff_forall_ne_some]
  intro m hm
  obtain ⟨text, rest, rfl, -, hqualifier, -⟩ := h.found hm
  exact hnot (hqualifier.trans (List.prefix_append text rest))

/-- The rules stay inside a tag. -/
theorem exists_inside (h : Renames find expand) {body : List Char}
    (hinside : ∀ c ∈ body, c ∉ ['<', '>']) (before : List Char) (adjoins : Bool) (rest : List Char) :
    ∃ other passed, (∀ c ∈ other, c ∉ ['<', '>']) ∧
      replaceFrom find expand before 0 adjoins (body ++ '>' :: rest) =
        other ++ '>' :: replaceFrom find expand passed 0 false rest := by
  match body with
  | [] =>
      have hnone : find before ('>' :: rest) = none := h.eq_none fun hstarts =>
        absurd (List.cons_prefix_cons.mp hstarts).1 (by decide)
      exact ⟨[], '>' :: before, by simp, replaceFrom_of_eq_none expand hnone adjoins⟩
  | c :: body =>
      obtain ⟨hc, hrest⟩ := List.forall_mem_cons.mp hinside
      cases hfind : find before (c :: (body ++ '>' :: rest)) with
      | none =>
          obtain ⟨other, passed, hother, heq⟩ := h.exists_inside hrest (c :: before) false rest
          refine ⟨c :: other, passed, List.forall_mem_cons.mpr ⟨hc, hother⟩, ?_⟩
          rw [List.cons_append, replaceFrom_of_eq_none expand hfind, heq, List.cons_append]
      | some m =>
          obtain ⟨text, tail, htext, hlength, hqualifier, hgreater, hexpand⟩ := h.found hfind
          have hcut : text ++ tail = (c :: body) ++ '>' :: rest := htext.symm
          obtain ⟨behind, hbehind, rfl⟩ := Node.exists_rest hcut fun more heq =>
            hgreater (by rw [heq]; simp)
          rcases text with _ | ⟨d, text⟩
          · exact absurd (List.prefix_nil.mp hqualifier) (by decide)
          · obtain ⟨rfl, hbody⟩ : c = d ∧ body = text ++ behind := List.cons.inj hbehind
            subst hbody
            obtain ⟨other, passed, hother, heq⟩ := h.exists_inside
              (fun e he => hrest e (List.mem_append_right _ he)) ((c :: text).reverse ++ before) true
              rest
            refine ⟨expand m ++ other, passed, List.forall_mem_append.mpr ⟨?_, hother⟩, ?_⟩
            · intro e he
              rcases hexpand e he with hclear | hmem
              · exact hclear
              · exact hinside e (List.mem_append_left behind hmem)
            · rw [List.append_assoc, ← List.cons_append] at hfind
              rw [List.cons_append, List.append_assoc, ← List.cons_append,
                replaceFrom_of_eq_some expand (List.cons_ne_nil c text) hfind hlength, heq,
                List.append_assoc]
termination_by body.length

/-- A qualifier that stands in the markup outside tags stands in its texts. -/
theorem prefix_signs {z : List Token} {front : List Char} (h : qualifier <+: front ++ spell z) :
    qualifier <+: front ++ signs z := by
  induction z generalizing front with
  | nil => exact h
  | cons t z ih =>
      cases t with
      | text signs =>
          rw [spell_text, ← List.append_assoc] at h
          rw [signs_text, ← List.append_assoc]
          exact ih h
      | tag body =>
          rw [spell_tag] at h
          have hfront := prefix_of_prefix_append (by decide : '<' ∉ qualifier) h
          exact hfront.trans (List.prefix_append front _)

/-- Where the texts have no qualifier, the rules leave them alone. -/
theorem exists_tokens (h : Renames find expand) {z : List Token}
    (hz : ∀ t ∈ z, ∀ c ∈ t.inside, c ∉ ['<', '>']) (hnone : ¬ qualifier <:+: signs z)
    (before : List Char) (adjoins : Bool) :
    ∃ y, (∀ t ∈ y, ∀ c ∈ t.inside, c ∉ ['<', '>']) ∧ signs y = signs z ∧
      replaceFrom find expand before 0 adjoins (spell z) = spell y := by
  induction z generalizing before adjoins with
  | nil =>
      have hfind : find before [] = none := h.eq_none fun hstarts =>
        absurd (List.prefix_nil.mp hstarts) (by decide)
      exact ⟨[], by simp, rfl, by simp [replaceFrom, hfind]⟩
  | cons t z ih =>
      obtain ⟨ht, hrest⟩ := List.forall_mem_cons.mp hz
      cases t with
      | text signs =>
          have hkept (c : Char) (back : List Char) (hback : c :: back <:+ signs)
              (before : List Char) : find before (c :: (back ++ spell z)) = none := by
            refine h.eq_none fun hstarts => hnone ?_
            obtain ⟨front, rfl⟩ := hback
            rw [← List.cons_append] at hstarts
            rw [signs_text, List.append_assoc]
            exact (prefix_signs hstarts).isInfix.trans (List.suffix_append front _).isInfix
          obtain ⟨joins, hjoins⟩ := exists_replaceFrom_append expand hkept before adjoins
          obtain ⟨y, hy, hsigns, heq⟩ := ih hrest
            (fun hoccurs => hnone (hoccurs.trans (List.suffix_append signs _).isInfix))
            (signs.reverse ++ before) joins
          refine ⟨.text signs :: y, List.forall_mem_cons.mpr ⟨ht, hy⟩, ?_, ?_⟩
          · rw [signs_text, signs_text, hsigns]
          · rw [spell_text, hjoins, heq, spell_text]
      | tag body =>
          have hopen : find before ('<' :: (body ++ '>' :: spell z)) = none :=
            h.eq_none fun hstarts => absurd (List.cons_prefix_cons.mp hstarts).1 (by decide)
          have hbody : ∀ c ∈ body, c ∉ ['<', '>'] := ht
          obtain ⟨other, passed, hother, hinside⟩ := h.exists_inside hbody ('<' :: before) false
            (spell z)
          obtain ⟨y, hy, hsigns, heq⟩ := ih hrest hnone passed false
          refine ⟨.tag other :: y, List.forall_mem_cons.mpr ⟨hother, hy⟩, hsigns, ?_⟩
          rw [spell_tag, replaceFrom, hopen]
          simp only [hinside, heq, spell_tag]

end Renames

end Names

namespace Standard

/-- Whether the rule of an entry edits the tags of sound markup or seeks a formula. -/
def entryEdits (entry : String × String) : Bool :=
  (Grammar.read? entry.1.toList).all fun found =>
    retagsBy found.1 (Template.parts entry.2.toList) || seeksFormula found.1

def entryRenames (entry : String × String) : Bool :=
  (Grammar.read? entry.1.toList).all fun found =>
    renamesBy found.1 (Template.parts entry.2.toList)

section Tables

variable {entry : String × String} {entries : Entries} {z : List Token}

theorem exists_edits_replaceWith (h : entryEdits entry = true) (hz : Sound z) :
    ∃ y, Edits z y ∧ replaceWith entry.1.toList entry.2.toList (spell z) = spell y := by
  rw [replaceWith]
  cases hread : Grammar.read? entry.1.toList with
  | none => exact ⟨z, .refl z, rfl⟩
  | some found =>
      rw [entryEdits, hread, Option.all_some] at h
      rcases (Bool.or_eq_true _ _).mp h with hretags | hseeks
      · exact (retags_of_retagsBy found.2 hretags).exists_edits hz [] false
      · exact ⟨z, .refl z, replaceFrom_of_not_hits _ (not_hits_of_seeksFormula hseeks hz []) false⟩

theorem exists_edits_replaceAllWith (h : ∀ entry ∈ entries, entryEdits entry = true)
    (hz : Sound z) (hnone : ¬ qualifier <:+: solid z) :
    ∃ y, Sound y ∧ ¬ qualifier <:+: solid y ∧ (ink (signs z)).Sublist (ink (signs y)) ∧
      replaceAllWith entries (spell z) = spell y := by
  induction entries generalizing z with
  | nil => exact ⟨z, hz, hnone, List.Sublist.refl _, rfl⟩
  | cons entry entries ih =>
      obtain ⟨hentry, hentries⟩ := List.forall_mem_cons.mp h
      obtain ⟨y, hedits, hy⟩ := exists_edits_replaceWith hentry hz
      have hapart : ¬ qualifier <:+: [] ++ solid y := hedits.not_occurs hnone
      obtain ⟨w, hw, hwnone, hink, heq⟩ := ih hentries (hedits.sound hz) hapart
      refine ⟨w, hw, hwnone, hedits.ink_sublist.trans hink, ?_⟩
      rw [replaceAllWith, List.foldl_cons, hy]
      exact heq

theorem exists_tokens_replaceAllWith (h : ∀ entry ∈ entries, entryRenames entry = true)
    (hz : ∀ t ∈ z, ∀ c ∈ t.inside, c ∉ ['<', '>']) (hnone : ¬ qualifier <:+: signs z) :
    ∃ y, signs y = signs z ∧ replaceAllWith entries (spell z) = spell y := by
  induction entries generalizing z with
  | nil => exact ⟨z, rfl, rfl⟩
  | cons entry entries ih =>
      obtain ⟨hentry, hentries⟩ := List.forall_mem_cons.mp h
      have hone : ∃ y, (∀ t ∈ y, ∀ c ∈ t.inside, c ∉ ['<', '>']) ∧ signs y = signs z ∧
          replaceWith entry.1.toList entry.2.toList (spell z) = spell y := by
        rw [replaceWith]
        cases hread : Grammar.read? entry.1.toList with
        | none => exact ⟨z, hz, rfl, rfl⟩
        | some found =>
            rw [entryRenames, hread, Option.all_some] at hentry
            exact (renames_of_renamesBy hentry found.2).exists_tokens hz hnone [] false
      obtain ⟨y, hy, hsigns, heq⟩ := hone
      obtain ⟨w, hw, hall⟩ := ih hentries hy (hsigns ▸ hnone)
      refine ⟨w, hw.trans hsigns, ?_⟩
      rw [replaceAllWith, List.foldl_cons, heq]
      exact hall

/-- Rules that edit tags, and behind them rules that rewrite qualified names, lose no sign of the
texts that is not blank. -/
theorem ink_sublist_replaceAllWith
    (h : (entries.dropWhile entryEdits).all entryRenames = true) (hz : Sound z)
    (hnone : ¬ qualifier <:+: solid z) :
    (ink (signs z)).Sublist (replaceAllWith entries (spell z)) := by
  have hedits : ∀ entry ∈ entries.takeWhile entryEdits, entryEdits entry = true :=
    fun entry hentry => List.mem_takeWhile_imp hentry
  obtain ⟨y, hy, hapart, hink, heq⟩ := exists_edits_replaceAllWith hedits hz hnone
  have hangles : ∀ t ∈ y, ∀ c ∈ t.inside, c ∉ ['<', '>'] := by
    intro t ht c hc
    have hsound := hy t ht
    cases t with
    | tag body => simpa using hsound.noAngle c hc
    | text signs => simpa using hsound c hc
  have hsigns : ¬ qualifier <:+: signs y := by
    intro hoccurs
    have hsolid : qualifier <:+: [] ++ solid y := qualifier_infix_solid hoccurs
    exact hapart hsolid
  obtain ⟨w, hw, hrenamed⟩ :=
    exists_tokens_replaceAllWith (List.all_eq_true.mp h) hangles hsigns
  have hall : replaceAllWith entries (spell z) = spell w := by
    rw [← hrenamed, ← heq, ← replaceAllWith_append, List.takeWhile_append_dropWhile]
  rw [hall]
  refine hink.trans (List.filter_sublist.trans ?_)
  rw [← hw]
  exact signs_sublist_spell w

end Tables

end Standard

theorem apply_docs_toXml (e : Element) : standard.docs.apply e.toXml =
    String.ofList (Standard.replaceAllWith Standard.docs e.toNode.markup) := by
  have hdocs : standard.docs = Standard.tableOf Standard.docs := by rw [standard]
  rw [hdocs, Standard.apply_tableOf, Element.toXml, String.toList_ofList]
  rfl

/-- Documentation text is not lost. Where a tree has plain names and no formula, and its texts, less
those of blanks only, have no `std::` when they are joined, what is not blank in its texts comes in
the same order in what the built-in rules make of its markup. -/
theorem ink_sublist_apply_docs (e : Element) (hnames : e.toNode.PlainlyNamed)
    (hformula : e.toNode.named "formula" = [])
    (hstd : ¬ qualifier <:+: Markup.Node.solidText e.toNode.texts) :
    (ink (e.toNode.texts.flatMap fun s => escape false s.toList)).Sublist
      (standard.docs.apply e.toXml).toList := by
  have hrules : (Standard.docs.dropWhile Standard.entryEdits).all Standard.entryRenames = true := by
    show (Standard.docs.dropWhile fun entry => Standard.entryEdits entry).all
      (fun entry => Standard.entryRenames entry) = true
    simp only [Standard.entryEdits, Standard.entryRenames, ← chars_eq_toList]
    decide +kernel
  have hnone : ¬ qualifier <:+: solid e.toNode.tokens := by
    rw [Markup.Node.solid_tokens]
    exact fun hoccurs => hstd (qualifier_infix_of_escape hoccurs)
  have hkept := Standard.ink_sublist_replaceAllWith hrules
    (Markup.Node.sound_tokens hnames hformula) hnone
  rw [Markup.Node.signs_tokens, Markup.Node.spell_tokens] at hkept
  rw [apply_docs_toXml, String.toList_ofList]
  exact hkept

/-- Marks in the texts and in an attribute, a note, and blanks between tags. -/
def noted : Element :=
  ⟨⟨"para", [], 0⟩, [.text "std < ", .element ⟨"ref", [("refid", "std::\">")], 0⟩ [.text "a::b"],
    .text "\n", .element ⟨"simplesect", [("kind", "note")], 0⟩ [.text "c & d"], .text " "]⟩

theorem ink_sublist_apply_docs_noted :
    noted.toNode.PlainlyNamed ∧ noted.toNode.named "formula" = [] ∧
      ¬ qualifier <:+: Markup.Node.solidText noted.toNode.texts ∧
      (ink (noted.toNode.texts.flatMap fun s => escape false s.toList)).Sublist
        (standard.docs.apply noted.toXml).toList := by
  have hnames : noted.toNode.PlainlyNamed :=
    ⟨⟨by decide +kernel, nofun⟩, trivial,
      ⟨⟨by decide +kernel, by decide +kernel⟩, trivial, trivial⟩, trivial,
      ⟨⟨by decide +kernel, by decide +kernel⟩, trivial, trivial⟩, trivial, trivial⟩
  have hformula : noted.toNode.named "formula" = [] := by rfl
  have hstd : ¬ qualifier <:+: Markup.Node.solidText noted.toNode.texts := by decide +kernel
  exact ⟨hnames, hformula, hstd, ink_sublist_apply_docs noted hnames hformula hstd⟩

/-- A section closed in a paragraph, with a blank between the tags that close them. -/
def closedTwice : Element :=
  ⟨⟨"a", [], 0⟩, [.element ⟨"p", [], 0⟩ [.element ⟨"xrefsect", [], 0⟩ [.text "std"], .text " "],
    .text "::string"]⟩

/-- A blank text that goes with the tags around it can bring a qualifier together. -/
theorem ink_lost_apply_docs :
    closedTwice.toNode.PlainlyNamed ∧ closedTwice.toNode.named "formula" = [] ∧
      ¬ qualifier <:+: closedTwice.toNode.texts.flatMap String.toList ∧
      standard.docs.apply closedTwice.toXml = "<a>String</a>" ∧
      ¬ (ink (closedTwice.toNode.texts.flatMap fun s => escape false s.toList)).Sublist
        (standard.docs.apply closedTwice.toXml).toList := by
  have hnames : closedTwice.toNode.PlainlyNamed :=
    ⟨⟨by decide +kernel, nofun⟩,
      ⟨⟨by decide +kernel, nofun⟩, ⟨⟨by decide +kernel, nofun⟩, trivial, trivial⟩, trivial, trivial⟩,
      trivial, trivial⟩
  have hresult : standard.docs.apply closedTwice.toXml = "<a>String</a>" := by
    rw [apply_docs_toXml, Standard.replaceAllWith_eq]
    exact congrArg String.ofList (by decide +kernel)
  refine ⟨hnames, rfl, by decide +kernel, hresult, ?_⟩
  rw [hresult]
  decide +kernel

end ClassSkeleton.Rules
