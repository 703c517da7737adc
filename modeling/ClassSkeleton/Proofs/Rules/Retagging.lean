import ClassSkeleton.Pattern.Replace
import ClassSkeleton.Proofs.Markup.Tokens
import ClassSkeleton.Proofs.Pattern.Keeping
import ClassSkeleton.Proofs.Pattern.Scanning
import ClassSkeleton.Proofs.Pattern.Spanning
import ClassSkeleton.Proofs.Rules.Openers

namespace ClassSkeleton.Rules

/-!
# Rules that rewrite tags

A rule whose matches are whole tags, with blanks or a text between two of them, edits the tokens
of the markup. Whether it does so can be seen from its pattern and its template.
-/

open Pattern
open Markup hiding Node

section Replacing

variable {find : Finder} (expand : Match → List Char)

/-- A text in which no match begins is passed over. -/
theorem exists_replaceFrom_append {text rest : List Char}
    (h : ∀ c back, c :: back <:+ text → ∀ before, find before (c :: (back ++ rest)) = none)
    (before : List Char) (adjoins : Bool) :
    ∃ joins, replaceFrom find expand before 0 adjoins (text ++ rest) =
      text ++ replaceFrom find expand (text.reverse ++ before) 0 joins rest := by
  induction text generalizing before adjoins with
  | nil => exact ⟨adjoins, rfl⟩
  | cons c text ih =>
      obtain ⟨joins, hjoins⟩ := ih
        (fun d back hback => h d back (hback.trans (List.suffix_cons c text))) (c :: before) false
      refine ⟨joins, ?_⟩
      rw [List.cons_append, replaceFrom_of_eq_none expand (h c text List.suffix_rfl before), hjoins,
        List.reverse_cons, List.append_assoc]
      rfl

/-- Whether the matches of a finder are whole tags of sound markup, and what is put in their place
edits them. -/
structure Retags (find : Finder) (expand : Match → List Char) : Prop where
  onlyTags : ∀ before c after, c ≠ '<' → find before (c :: after) = none
  notEmpty : ∀ before, find before [] = none
  edits : ∀ before body z m, Sound (.tag body :: z) →
    find before (spell (.tag body :: z)) = some m →
      ∃ old rest new, z = old ++ rest ∧ m.length = (spell (.tag body :: old)).length ∧
        expand m = spell new ∧ Edits (.tag body :: old) new

variable {expand}

/-- All replacements together edit the tokens of the markup. -/
theorem Retags.exists_edits (h : Retags find expand) {z : List Token} (hz : Sound z)
    (before : List Char) (adjoins : Bool) :
    ∃ y, Edits z y ∧ replaceFrom find expand before 0 adjoins (spell z) = spell y := by
  match z with
  | [] => exact ⟨[], .nil, by simp [replaceFrom, h.notEmpty]⟩
  | .text signs :: z =>
      obtain ⟨hsigns, hrest⟩ := List.forall_mem_cons.mp hz
      have hnone (c : Char) (back : List Char) (hback : c :: back <:+ signs)
          (before : List Char) : find before (c :: (back ++ spell z)) = none :=
        h.onlyTags before c _ (hsigns c (hback.subset List.mem_cons_self)).1
      obtain ⟨joins, hjoins⟩ := exists_replaceFrom_append expand hnone before adjoins
      obtain ⟨y, hedits, hy⟩ := h.exists_edits hrest (signs.reverse ++ before) joins
      exact ⟨.text signs :: y, .keep _ hedits, by rw [spell_text, hjoins, hy, spell_text]⟩
  | .tag body :: z =>
      obtain ⟨hbody, hrest⟩ := List.forall_mem_cons.mp hz
      cases hfind : find before (spell (.tag body :: z)) with
      | none =>
          have hinside (c : Char) (back : List Char) (hback : c :: back <:+ body ++ ['>'])
              (before : List Char) : find before (c :: (back ++ spell z)) = none := by
            apply h.onlyTags
            rcases List.mem_append.mp (hback.subset List.mem_cons_self) with hc | hc
            · exact (hbody.noAngle c hc).1
            · obtain rfl := List.mem_singleton.mp hc
              decide
          obtain ⟨joins, hjoins⟩ := exists_replaceFrom_append expand hinside ('<' :: before) false
          obtain ⟨y, hedits, hy⟩ := h.exists_edits hrest
            ((body ++ ['>']).reverse ++ '<' :: before) joins
          refine ⟨.tag body :: y, .keep _ hedits, ?_⟩
          rw [hy, List.append_assoc, List.singleton_append] at hjoins
          rw [spell_tag] at hfind ⊢
          rw [replaceFrom_of_eq_none expand hfind, hjoins, spell_tag, List.append_assoc,
            List.singleton_append]
      | some m =>
          obtain ⟨old, rest, new, hcut, hlength, hexpand, hold⟩ := h.edits before body z m hz hfind
          subst hcut
          obtain ⟨-, hbehind⟩ := List.forall_mem_append.mp hrest
          obtain ⟨y, hedits, hy⟩ := h.exists_edits hbehind
            ((spell (.tag body :: old)).reverse ++ before) true
          refine ⟨new ++ y, hold.append hedits, ?_⟩
          have hne : spell (.tag body :: old) ≠ [] := by
            rw [spell_tag]
            exact List.cons_ne_nil _ _
          rw [← List.cons_append, spell_append] at hfind ⊢
          rw [replaceFrom_of_eq_some expand hne hfind hlength, hexpand, hy, spell_append]
termination_by z.length
decreasing_by
  · simp
  · simp
  · simp only [hcut, List.length_cons, List.length_append]
    omega

end Replacing

section Templates

/-- Whether a part writes none of some characters itself. Groups are meant by their number only. -/
def clearOf (chars : List Char) : Part → Bool
  | .char c => !chars.contains c
  | .numbered index => index != 0
  | .named _ => false

variable {x : Node} {parts : List Part} {before text rest : List Char}
  {recorded : List (Nat × List Char)}

theorem mem_of_lookup {index : Nat} {found : List Char}
    (h : (recorded ++ [(0, text)]).lookup index = some found) (hindex : index ≠ 0) :
    (index, found) ∈ recorded := by
  induction recorded with
  | nil => simp [List.lookup_cons, beq_false_of_ne hindex] at h
  | cons entry recorded ih =>
      rw [List.cons_append, List.lookup_cons] at h
      split at h
      · next heq =>
        obtain rfl := Option.some.inj h
        obtain rfl := beq_iff_eq.mp heq
        exact List.mem_cons_self
      · exact List.mem_cons_of_mem _ (ih h)

variable {names : List (String × Nat)}

/-- What a template writes comes from it or from a group. -/
theorem notMem_or_of_mem_expand {chars : List Char} (hclear : parts.all (clearOf chars) = true)
    {c : Char}
    (hc : c ∈ Template.expand names parts ⟨text.length, recorded ++ [(0, text)]⟩) :
    c ∉ chars ∨ ∃ entry ∈ recorded, c ∈ entry.2 := by
  obtain ⟨part, hpart, hc⟩ := List.mem_flatMap.mp hc
  have hone := List.all_eq_true.mp hclear part hpart
  cases part with
  | char d =>
      obtain rfl := List.mem_singleton.mp hc
      exact Or.inl (by simpa [clearOf] using hone)
  | numbered index =>
      rw [Template.expandPart, Match.group?] at hc
      cases hfound : (recorded ++ [(0, text)]).lookup index with
      | none =>
          rw [hfound] at hc
          cases hc
      | some found =>
          rw [hfound] at hc
          exact Or.inr ⟨_, mem_of_lookup hfound (by simpa [clearOf] using hone), hc⟩
  | named name => cases hone

/-- Whether a part is a character that no qualifier has. -/
def parting : Part → Bool
  | .char c => !qualifier.contains c
  | _ => false

/-- Whether a template writes what may be put in place of a tag. -/
def writesApart (x : Node) (parts : List Part) : Bool :=
  x.groupsAvoid ['<', '>', ':'] && parts.all (clearOf ['<', '>', ':']) &&
    parts.head?.all parting && parts.getLast?.all parting

theorem apart_expand (names : List (String × Nat)) (h : writesApart x parts = true)
    (htakes : x.Takes before text rest recorded) :
    Apart (Template.expand names parts ⟨text.length, recorded ++ [(0, text)]⟩) := by
  simp only [writesApart, Bool.and_eq_true] at h
  obtain ⟨⟨⟨hgroups, hclear⟩, hfirst⟩, hlast⟩ := h
  have hnone : ∀ c ∈ Template.expand names parts ⟨text.length, recorded ++ [(0, text)]⟩,
      c ∉ ['<', '>', ':'] := by
    intro c hc
    rcases notMem_or_of_mem_expand hclear hc with hnot | ⟨entry, hentry, hc⟩
    · exact hnot
    · exact htakes.recorded_notMem hgroups entry hentry c hc
  have hchar (part : Part) (hpart : parting part = true) :
      ∃ c, part = .char c ∧ c ∉ qualifier := by
    cases part with
    | char c => exact ⟨c, rfl, by simpa [parting] using hpart⟩
    | numbered | named => cases hpart
  refine ⟨fun c hc => ?_, fun hc => hnone ':' hc (by simp), ?_, ?_⟩
  · have hnot := hnone c hc
    simp only [List.mem_cons, not_or] at hnot
    exact ⟨hnot.1, hnot.2.1⟩
  · intro c hc
    rcases parts with _ | ⟨part, parts⟩
    · cases hc
    · obtain ⟨d, rfl, hd⟩ := hchar part (by simpa using hfirst)
      obtain rfl : d = c := Option.some.inj hc
      exact hd
  · intro c hc
    rcases List.eq_nil_or_concat' parts with rfl | ⟨init, part, rfl⟩
    · cases hc
    · obtain ⟨d, rfl, hd⟩ := hchar part (by simpa using hlast)
      obtain rfl : d = c := by simpa [Template.expand, Template.expandPart] using hc
      exact hd

/-- What a template writes between the brackets of a tag. -/
def inside? : List Part → Option (List Part)
  | .char '<' :: parts => if parts.getLast? = some (.char '>') then some parts.dropLast else none
  | _ => none

/-- Whether the name of a tag cannot be that of a formula. -/
def namesOther : List Part → Bool
  | .char '/' :: .char c :: _ => c != 'f'
  | .char '/' :: _ => false
  | .char c :: _ => c != 'f'
  | _ => false

/-- Whether a template writes a tag. -/
def writesTag (x : Node) (parts : List Part) : Bool :=
  x.groupsAvoid ['"'] && (inside? parts).any fun inside =>
    inside.all (clearOf ['<', '>']) && inside.count (.char '"') % 2 == 0 && namesOther inside

theorem expand_of_inside? {inside : List Part} (h : inside? parts = some inside) (m : Match) :
    Template.expand names parts m = '<' :: (Template.expand names inside m ++ ['>']) := by
  rw [inside?.eq_def] at h
  split at h
  · next parts =>
    split at h
    · next hlast =>
      obtain rfl := Option.some.inj h
      have hparts : parts = parts.dropLast ++ [.char '>'] :=
        (List.dropLast_append_getLast? _ hlast).symm
      rw [Template.expand, List.flatMap_cons, hparts, List.flatMap_append]
      simp [Template.expand, Template.expandPart]
    · cases h
  · cases h

theorem count_expand {c : Char} (hclear : parts.all (clearOf []) = true)
    (hgroups : ∀ entry ∈ recorded, c ∉ entry.2) :
    (Template.expand names parts ⟨text.length, recorded ++ [(0, text)]⟩).count c =
      parts.count (.char c) := by
  induction parts with
  | nil => rfl
  | cons part parts ih =>
      obtain ⟨hpart, hparts⟩ := (Bool.and_eq_true _ _).mp hclear
      have hone : (Template.expandPart names ⟨text.length, recorded ++ [(0, text)]⟩ part).count c =
          [part].count (.char c) := by
        cases part with
        | char d => simp [Template.expandPart, List.count_cons]
        | numbered index =>
            have hnone : c ∉ Template.expand names [.numbered index]
                ⟨text.length, recorded ++ [(0, text)]⟩ := by
              intro hc
              have hone : [Part.numbered index].all (clearOf [c]) = true := by
                simpa [clearOf] using hpart
              rcases notMem_or_of_mem_expand hone hc with hnot | ⟨entry, hentry, hc⟩
              · exact hnot (List.mem_singleton_self c)
              · exact hgroups entry hentry hc
            rw [Template.expand, List.flatMap_singleton] at hnone
            rw [List.count_eq_zero_of_not_mem hnone]
            simp
        | named name => cases hpart
      rw [Template.expand, List.flatMap_cons, List.count_append, hone]
      have hrest := ih hparts
      rw [Template.expand] at hrest
      rw [hrest, ← List.count_append, List.singleton_append]

theorem clearOf_mono {chars : List Char} {part : Part} (h : clearOf chars part = true) :
    clearOf [] part = true := by
  cases part with
  | char c => rfl
  | numbered | named => exact h

theorem isBody_expand (names : List (String × Nat)) {inside : List Part} (h : writesTag x parts = true)
    (hinside : inside? parts = some inside) (htakes : x.Takes before text rest recorded)
    (hangles : ∀ entry ∈ recorded, ∀ c ∈ entry.2, c ≠ '<' ∧ c ≠ '>') :
    IsBody (Template.expand names inside ⟨text.length, recorded ++ [(0, text)]⟩) := by
  simp only [writesTag, hinside, Option.any_some, Bool.and_eq_true] at h
  obtain ⟨hgroups, ⟨hclear, hpaired⟩, hnames⟩ := h
  have hparts : inside.all (clearOf []) = true :=
    List.all_eq_true.mpr fun part hpart => clearOf_mono (List.all_eq_true.mp hclear part hpart)
  have hnone : ∀ entry ∈ recorded, '"' ∉ entry.2 := fun entry hentry hc =>
    htakes.recorded_notMem hgroups entry hentry _ hc (by simp)
  refine ⟨fun c hc => ?_, ?_, ?_, ?_⟩
  · rcases notMem_or_of_mem_expand hclear hc with hnot | ⟨entry, hentry, hc⟩
    · simpa using hnot
    · exact hangles entry hentry c hc
  · rw [count_expand hparts hnone]
    exact beq_iff_eq.mp hpaired
  · intro c more heq
    rw [namesOther.eq_def] at hnames
    split at hnames
    · obtain ⟨hslash, -⟩ := List.cons.inj heq
      exact absurd hslash (by decide)
    · cases hnames
    · obtain ⟨rfl, -⟩ := List.cons.inj heq
      exact absurd rfl (bne_iff_ne.mp hnames)
    · cases hnames
  · intro heq
    rw [namesOther.eq_def] at hnames
    split at hnames
    · obtain ⟨-, hrest⟩ := List.cons.inj heq
      obtain ⟨rfl, -⟩ := List.cons.inj hrest
      exact absurd rfl (bne_iff_ne.mp hnames)
    · cases hnames
    · next hslash =>
      obtain ⟨rfl, -⟩ := List.cons.inj heq
      exact absurd rfl hslash
    · cases hnames

/-- What a template writes before a group and behind it, if it writes single characters there. -/
def around? (index : Nat) : List Part → Option (List Char × List Char)
  | .char c :: parts => (around? index parts).map fun sides => (c :: sides.1, sides.2)
  | .numbered other :: parts =>
    if other = index then (literal? parts).map ([], ·) else none
  | _ => none
where
  literal? : List Part → Option (List Char)
    | [] => some []
    | .char c :: parts => (literal? parts).map (c :: ·)
    | _ => none

theorem expand_of_literal? {written : List Char} (h : around?.literal? parts = some written)
    (m : Match) : Template.expand names parts m = written := by
  induction parts generalizing written with
  | nil => exact Option.some.inj h
  | cons part parts ih =>
      cases part with
      | char c =>
          obtain ⟨rest, hrest, rfl⟩ := Option.map_eq_some_iff.mp h
          rw [Template.expand, List.flatMap_cons, ← Template.expand, ih hrest]
          rfl
      | numbered | named => cases h

theorem expand_of_around? {index : Nat} {front back : List Char}
    (h : around? index parts = some (front, back)) (m : Match) :
    Template.expand names parts m = front ++ ((m.group? index).getD [] ++ back) := by
  induction parts generalizing front with
  | nil => cases h
  | cons part parts ih =>
      rw [Template.expand, List.flatMap_cons, ← Template.expand]
      cases part with
      | char c =>
          obtain ⟨⟨more, rest⟩, hrest, hsides⟩ := Option.map_eq_some_iff.mp h
          obtain ⟨rfl, rfl⟩ := Prod.mk.inj hsides
          rw [ih hrest]
          rfl
      | numbered other =>
          rw [around?] at h
          split at h
          · next hsame =>
            obtain ⟨written, hwritten, hsides⟩ := Option.map_eq_some_iff.mp h
            obtain ⟨rfl, rfl⟩ := Prod.mk.inj hsides
            rw [expand_of_literal? hwritten, ← hsame]
            rfl
          · cases h
      | named => cases h

/-- Whether what a template writes around the only group of a node may be put in place of tags. -/
def writesAround (x : Node) (index : Nat) (parts : List Part) : Bool :=
  decide x.indices.Nodup && x.strokes?.isSome &&
    (around? index parts).any fun sides => standsApart sides.1 && standsApart sides.2

/-- Whether what a template writes may be put in place of two tags and the gap between them. -/
def writesFor (x : Node) (parts : List Part) : Gap → Bool
  | .blanks => writesApart x parts
  | .group index => writesAround x index parts

/-- Whether an entry takes whole tags of sound markup and edits them. -/
def retagsBy (x : Node) (parts : List Part) : Bool :=
  x.leads ['<'] && (x.isTag && (writesApart x parts || writesTag x parts) ||
    x.pairGap?.any (writesFor x parts))

end Templates

section Tags

variable {x : Node} {parts : List Part} (names : List (String × Nat))
  {before body text rest : List Char} {recorded : List (Nat × List Char)} {z : List Token}

theorem quotes_fit (h : IsBody body) : Quotes.closed.Fits body ∧ '>' ∉ body :=
  ⟨h.paired, fun hc => (h.noAngle '>' hc).2 rfl⟩

theorem pairedFrom_spell (hz : Sound z) : Node.PairedFrom (spell z) := by
  intro front back h
  obtain ⟨first, body, after, rfl, -, rfl⟩ := exists_tag_of_spell hz h
  exact ⟨body, spell after, rfl, quotes_fit (hz (.tag body) (by simp))⟩

theorem edits_of_isTag (htag : x.isTag = true)
    (hwrites : (writesApart x parts || writesTag x parts) = true)
    (htakes : x.Takes before text rest recorded) (hz : Sound (.tag body :: z))
    (heq : text ++ rest = spell (.tag body :: z)) :
    text = spell [.tag body] ∧ ∃ new,
      Template.expand names parts ⟨text.length, recorded ++ [(0, text)]⟩ = spell new ∧
        Edits [.tag body] new := by
  have hbody : IsBody body := hz _ List.mem_cons_self
  rw [spell_tag] at heq
  obtain ⟨htext, -, hgroups⟩ := htakes.tag htag (quotes_fit hbody).1 (quotes_fit hbody).2 heq
  refine ⟨by simpa using htext, ?_⟩
  rcases (Bool.or_eq_true _ _).mp hwrites with hwrites | hwrites
  · exact ⟨[.text _], by simp, .write body (apart_expand names hwrites htakes) .nil⟩
  · obtain ⟨inside, hinside, -⟩ :=
      (Option.any_eq_true _ _).mp ((Bool.and_eq_true _ _).mp hwrites).2
    have hother := isBody_expand names hwrites hinside htakes fun entry hentry c hc =>
      hbody.noAngle c (hgroups entry hentry c hc)
    exact ⟨[.tag _], by simp [expand_of_inside? hinside], .swap body hother .nil⟩

theorem exists_texts_of_less {y : List Token} (h : '<' ∉ spell y) :
    ∀ t ∈ y, ∃ signs, t = .text signs ∧ ∀ c ∈ signs, c ∈ spell y := by
  intro t ht
  have hspelled : ∀ c ∈ t.spelling, c ∈ spell y := fun c hc => List.mem_flatMap.mpr ⟨t, ht, hc⟩
  cases t with
  | tag body => exact absurd (hspelled '<' List.mem_cons_self) h
  | text signs => exact ⟨signs, rfl, hspelled⟩

theorem edits_of_pairGap? {gap : Gap} (hpair : x.pairGap? = some gap)
    (hwrites : writesFor x parts gap = true)
    (htakes : x.Takes before text rest recorded) (hz : Sound (.tag body :: z))
    (heq : text ++ rest = spell (.tag body :: z)) :
    ∃ old behind new, z = old ++ behind ∧ text = spell (.tag body :: old) ∧
      Template.expand names parts ⟨text.length, recorded ++ [(0, text)]⟩ = spell new ∧
        Edits (.tag body :: old) new := by
  obtain ⟨hbody, hz⟩ := List.forall_mem_cons.mp hz
  have hfit := quotes_fit hbody
  rw [spell_tag] at heq
  obtain ⟨between, second, htext, hmore, hgreater, hless, hgap⟩ :=
    htakes.pair hpair hfit.1 hfit.2 (pairedFrom_spell hz) heq
  obtain ⟨gaps, other, behind, rfl, rfl, hrest⟩ := exists_tag_of_spell hz hmore
  have hother : IsBody other := hz (.tag other) (by simp)
  obtain ⟨rfl, -⟩ : second = other ∧ '>' :: rest = '>' :: spell behind :=
    Text.append_inj_of_forall (p := (· != '>')) hrest
      (fun c hc => bne_iff_ne.mpr fun heq => hgreater (heq ▸ hc)) (by simp)
      (fun c hc => bne_iff_ne.mpr (hother.noAngle c hc).2) (by simp)
  have htexts := exists_texts_of_less hless
  refine ⟨gaps ++ [.tag second], behind, ?_⟩
  cases gap with
  | blanks =>
      have hblank : ∀ t ∈ gaps, ∃ signs, t = .text signs ∧ isGap signs = true := by
        intro t ht
        obtain ⟨signs, rfl, hsigns⟩ := htexts t ht
        exact ⟨signs, rfl, List.all_eq_true.mpr fun c hc => hgap c (hsigns c hc)⟩
      have hapart := apart_expand names hwrites htakes
      refine ⟨[.text _, .text []], by simp, by simpa using htext, (List.append_nil _).symm, ?_⟩
      exact .write body hapart (.close_all hblank (.write second .nil .nil))
  | group index =>
      simp only [writesFor, writesAround, Bool.and_eq_true] at hwrites
      obtain ⟨⟨hnodup, hstrokes⟩, haround⟩ := hwrites
      obtain ⟨⟨front, back⟩, hsides, hapart⟩ := (Option.any_eq_true _ _).mp haround
      obtain ⟨hfront, hback⟩ := (Bool.and_eq_true _ _).mp hapart
      obtain ⟨strokes, hstrokes⟩ := Option.isSome_iff_exists.mp hstrokes
      have hrecorded : (recorded.map Prod.fst).Nodup :=
        (List.nodup_reverse.mpr (of_decide_eq_true hnodup)).sublist
          (htakes.sublist_indices hstrokes)
      have hgroup := lookup_append_of_mem hrecorded hgap [(0, text)]
      refine ⟨.text front :: (gaps ++ [.text back]), by simp, by simpa using htext, ?_, ?_⟩
      · rw [expand_of_around? hsides, Match.group?, hgroup]
        simp
      · exact .write body (apart_of_standsApart hfront)
          ((Edits.refl gaps).append (.write second (apart_of_standsApart hback) .nil))

theorem retags_of_retagsBy (h : retagsBy x parts = true) :
    Retags x.matchAt? (Template.expand names parts) := by
  obtain ⟨hleads, hedits⟩ := (Bool.and_eq_true _ _).mp h
  have hbracket {before after : List Char} {m : Match} (hm : x.matchAt? before after = some m) :
      ∃ more, after = '<' :: more := by
    obtain ⟨text, rest, recorded, rfl, -, htakes⟩ := Node.exists_takes_of_matchAt? hm
    obtain ⟨more, rfl⟩ := htakes.leads hleads
    exact ⟨more ++ rest, rfl⟩
  refine ⟨fun before c after hc => ?_, fun before => ?_, fun before body z m hz hm => ?_⟩
  · rw [Option.eq_none_iff_forall_ne_some]
    intro m hm
    obtain ⟨more, hmore⟩ := hbracket hm
    exact hc (List.cons.inj hmore).1
  · rw [Option.eq_none_iff_forall_ne_some]
    intro m hm
    obtain ⟨more, hmore⟩ := hbracket hm
    cases hmore
  · obtain ⟨text, rest, recorded, heq, rfl, htakes⟩ := Node.exists_takes_of_matchAt? hm
    rcases (Bool.or_eq_true _ _).mp hedits with htag | hpair
    · obtain ⟨htag, hwrites⟩ := (Bool.and_eq_true _ _).mp htag
      obtain ⟨htext, new, hnew, hold⟩ := edits_of_isTag names htag hwrites htakes hz heq.symm
      exact ⟨[], z, new, rfl, by rw [← htext], hnew, hold⟩
    · obtain ⟨gap, hgap, hwrites⟩ := (Option.any_eq_true _ _).mp hpair
      obtain ⟨old, behind, new, rfl, htext, hnew, hold⟩ :=
        edits_of_pairGap? names hgap hwrites htakes hz heq.symm
      exact ⟨old, behind, new, rfl, by rw [← htext], hnew, hold⟩

end Tags

end ClassSkeleton.Rules
