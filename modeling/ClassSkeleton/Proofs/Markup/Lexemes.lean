import ClassSkeleton.Markup.Event
import Mathlib.Data.List.Forall2

namespace ClassSkeleton.Markup

/-!
# Lexemes of a source

Before anything is known of its elements, a source is cut into texts, comments, character data,
document types, instructions, end tags and start tags. Each lexeme ends at the first mark that can
end it, so there is one way to cut. The pieces that reading takes off a source are its lexemes,
and the tags that it reads are those of the start tags, in their order.
-/

/-- A lexeme, by what stands between its marks. -/
inductive Lexeme where
  | text (body : List Char)
  | comment (body : List Char)
  | data (body : List Char)
  | doctype (body : List Char)
  | instruction (body : List Char)
  | endTag (body : List Char)
  | startTag (body : List Char)

/-- The lexeme in front of a text, and what stands behind it. -/
def lexeme? : List Char → Option (Lexeme × List Char)
  | [] => none
  | '<' :: '!' :: '[' :: 'C' :: 'D' :: 'A' :: 'T' :: 'A' :: '[' :: text =>
    (Text.cutAt? [']', ']', '>'] text).map fun cut => (.data cut.1, cut.2)
  | '<' :: '!' :: '-' :: '-' :: text =>
    (Text.cutAt? ['-', '-', '>'] text).map fun cut => (.comment cut.1, cut.2)
  | '<' :: '!' :: text => (Text.cutAtClose? 0 text).map fun cut => (.doctype cut.1, cut.2)
  | '<' :: '?' :: text =>
    (Text.cutAt? ['?', '>'] text).map fun cut => (.instruction cut.1, cut.2)
  | '<' :: '/' :: text => (cutTag? none text).map fun cut => (.endTag cut.1, cut.2)
  | '<' :: text => (cutTag? none text).map fun cut => (.startTag cut.1, cut.2)
  | c :: text => some (.text (c :: text.takeWhile (· ≠ '<')), text.dropWhile (· ≠ '<'))

/-- The lexemes that make up a text. -/
inductive Lexes : List Char → List Lexeme → Prop
  | done : Lexes [] []
  | next {text rest : List Char} {l : Lexeme} {ls : List Lexeme}
      (first : lexeme? text = some (l, rest)) (more : Lexes rest ls) : Lexes text (l :: ls)

theorem Lexes.unique {text : List Char} {ls others : List Lexeme} (h : Lexes text ls)
    (hothers : Lexes text others) : ls = others := by
  induction h generalizing others with
  | done =>
      cases hothers with
      | done => rfl
      | next first _ => cases first
  | next first _ ih =>
      cases hothers with
      | done => cases first
      | next firstOther moreOther =>
          obtain ⟨rfl, rfl⟩ := Prod.mk.inj (Option.some.inj (first.symm.trans firstOther))
          rw [ih moreOther]

namespace Lexeme

def spell : Lexeme → List Char
  | text body => body
  | comment body => '<' :: '!' :: '-' :: '-' :: body ++ ['-', '-', '>']
  | data body =>
    '<' :: '!' :: '[' :: 'C' :: 'D' :: 'A' :: 'T' :: 'A' :: '[' :: body ++ [']', ']', '>']
  | doctype body => '<' :: '!' :: body ++ ['>']
  | instruction body => '<' :: '?' :: body ++ ['?', '>']
  | endTag body => '<' :: '/' :: body ++ ['>']
  | startTag body => '<' :: body ++ ['>']

def startTag? : Lexeme → Option (List Char)
  | startTag body => some body
  | _ => none

end Lexeme

theorem lexeme?_eq_append {text rest : List Char} {l : Lexeme}
    (h : lexeme? text = some (l, rest)) : text = l.spell ++ rest := by
  unfold lexeme? at h
  split at h
  case h_1 => cases h
  case h_8 =>
    obtain ⟨rfl, rfl⟩ := Prod.mk.inj (Option.some.inj h)
    simp [Lexeme.spell]
  all_goals
    obtain ⟨⟨before, behind⟩, hcut, heq⟩ := Option.map_eq_some_iff.mp h
    obtain ⟨rfl, rfl⟩ := Prod.mk.inj heq
  case h_2 | h_3 | h_5 => simp [Lexeme.spell, Text.cutAt?_eq_append hcut]
  case h_4 => simp [Lexeme.spell, Text.cutAtClose?_eq_append hcut]
  case h_6 | h_7 => simp [Lexeme.spell, cutTag?_eq_append hcut]

theorem Lexes.spell {text : List Char} {ls : List Lexeme} (h : Lexes text ls) :
    text = ls.flatMap Lexeme.spell := by
  induction h with
  | done => rfl
  | next first _ ih => rw [List.flatMap_cons, ← ih, ← lexeme?_eq_append first]

/-- A start tag in a source: the place of its first byte, and what stands between its brackets. -/
structure StartTag where
  start : Nat
  body : List Char

namespace StartTag

def spell (t : StartTag) : List Char := (Lexeme.startTag t.body).spell

/-- The place behind the tag. -/
def stop (t : StartTag) : Nat := t.start + Text.bytes t.spell

/-- The body without the slash that closes the element at once. -/
def inner (t : StartTag) : List Char :=
  if t.body.getLast? = some '/' then t.body.dropLast else t.body

/-- Whether the tag stands in a source where it says. -/
def StandsIn (t : StartTag) (source : List Char) : Prop :=
  ∃ front back, source = front ++ t.spell ++ back ∧ Text.bytes front = t.start

end StartTag

/-- The start tags among some lexemes, the first of which stands at `place`. -/
def startTags (place : Nat) : List Lexeme → List StartTag
  | [] => []
  | l :: ls => (l.startTag?.map (StartTag.mk place)).toList ++
      startTags (place + Text.bytes l.spell) ls

theorem le_start_of_mem_startTags {place : Nat} {ls : List Lexeme} {t : StartTag}
    (h : t ∈ startTags place ls) : place ≤ t.start := by
  induction ls generalizing place with
  | nil => cases h
  | cons l ls ih =>
      rcases List.mem_append.mp h with hfirst | hmore
      · obtain ⟨body, -, rfl⟩ := Option.map_eq_some_iff.mp (Option.mem_toList.mp hfirst)
        exact Nat.le_refl _
      · exact Nat.le_trans (Nat.le_add_right _ _) (ih hmore)

/-- No two start tags overlap. -/
theorem pairwise_startTags (place : Nat) (ls : List Lexeme) :
    (startTags place ls).Pairwise fun t u => t.stop ≤ u.start := by
  induction ls generalizing place with
  | nil => exact .nil
  | cons l ls ih =>
      cases l with
      | startTag body =>
          exact .cons (fun u hu => le_start_of_mem_startTags hu) (ih _)
      | _ => exact ih _

/-- The tag of the element that an event begins. -/
def Event.tag? : Event → Option Tag
  | opened tag => some tag
  | single tag => some tag
  | _ => none

section Reading

variable {locate : Nat → Nat} {names : List String} {offset : Nat}

/-- What reading makes of a lexeme that ends at `stop`: the element of a start tag, and of any
other lexeme nothing that begins an element. -/
def Gives (locate : Nat → Nat) (stop : Nat) (l : Lexeme) (event : Event) : Prop :=
  match l.startTag? with
  | none => event.tag? = none
  | some body => openedEvent body (locate stop) = .ok event

/-- A piece that reading takes off a text is the lexeme in front of it. -/
def IsLexeme (locate : Nat → Nat) (offset : Nat) (text : List Char) (piece : Piece) : Prop :=
  ∃ l, lexeme? text = some (l, piece.rest) ∧ piece.size = Text.bytes l.spell ∧
    Gives locate (offset + piece.size) l piece.event

theorem cutAt?_data {inner data rest : List Char}
    (hcut : Text.cutAt? [']', ']', '>'] inner = some (data, rest))
    (hdata : ['C', 'D', 'A', 'T', 'A', '['].isPrefixOf data = true) :
    ∃ body text, data = 'C' :: 'D' :: 'A' :: 'T' :: 'A' :: '[' :: body ∧
      inner = 'C' :: 'D' :: 'A' :: 'T' :: 'A' :: '[' :: text ∧
      Text.cutAt? [']', ']', '>'] text = some (body, rest) := by
  obtain ⟨body, rfl⟩ := List.isPrefixOf_iff_prefix.mp hdata
  have hinner := Text.cutAt?_eq_append hcut
  simp only [List.cons_append, List.nil_append, List.append_assoc] at hinner
  subst hinner
  exact ⟨body, _, rfl, rfl, by simpa [Text.cutAt?, List.isPrefixOf] using hcut⟩

theorem isLexeme_of_readBang {inner : List Char} {piece : Piece}
    (h : readBang inner = .ok piece) : IsLexeme locate offset ('<' :: '!' :: inner) piece := by
  unfold readBang at h
  split at h
  · split at h
    · cases h
    · next hcut =>
        split at h
        · next hdata =>
            obtain rfl := Except.ok.inj h
            obtain ⟨body, text, rfl, rfl, hbody⟩ := cutAt?_data hcut hdata
            refine ⟨.data body, by simp [lexeme?, hbody], ?_, rfl⟩
            simp [Lexeme.spell, Char.utf8Size]
            omega
        · cases h
  · split at h
    · cases h
    · next comment rest hcut =>
        split at h
        · next hdash =>
            obtain rfl := Except.ok.inj h
            subst hdash
            refine ⟨.comment comment, by simp [lexeme?, hcut], ?_, rfl⟩
            simp [Lexeme.spell, Char.utf8Size]
            omega
        · cases h
  · cases h
  · split at h
    · next c inner hdata hcomment hdash hletter =>
        split at h
        · cases h
        · next content rest hcut =>
            split at h
            · cases h
            · split at h
              · cases h
              · obtain rfl := Except.ok.inj h
                refine ⟨.doctype content, ?_, ?_, rfl⟩
                · rcases hletter with rfl | rfl <;> simp [lexeme?, hcut]
                · simp [Lexeme.spell, Char.utf8Size]
                  omega
    · cases h
  · cases h

theorem isLexeme_of_readInstruction {inner : List Char} {piece : Piece}
    (h : readInstruction inner = .ok piece) :
    IsLexeme locate offset ('<' :: '?' :: inner) piece := by
  unfold readInstruction at h
  split at h
  · cases h
  · split at h
    · cases h
    · next content rest hcut =>
        obtain rfl := Except.ok.inj h
        refine ⟨.instruction content, by simp [lexeme?, hcut], ?_, rfl⟩
        simp [Lexeme.spell, Char.utf8Size]
        omega

theorem isLexeme_of_readClosed {inner : List Char} {piece : Piece}
    (h : readClosed names inner = .ok piece) :
    IsLexeme locate offset ('<' :: '/' :: inner) piece := by
  unfold readClosed at h
  split at h
  · cases h
  · next content rest hcut =>
      split at h
      · cases h
      · split at h
        · obtain rfl := Except.ok.inj h
          refine ⟨.endTag content, by simp [lexeme?, hcut], ?_, rfl⟩
          simp [Lexeme.spell, Char.utf8Size]
          omega
        · cases h

theorem isLexeme_of_readOpened {inner : List Char} {piece : Piece}
    (hbang : ∀ more, inner ≠ '!' :: more) (hquestion : ∀ more, inner ≠ '?' :: more)
    (hslash : ∀ more, inner ≠ '/' :: more) (h : readOpened locate offset inner = .ok piece) :
    IsLexeme locate offset ('<' :: inner) piece := by
  unfold readOpened at h
  split at h
  · cases h
  · next body rest hcut =>
      obtain ⟨event, hevent, rfl⟩ := exists_of_map_eq_ok h
      refine ⟨.startTag body, ?_, ?_, hevent⟩
      · simp [lexeme?, hcut, hbang]
      · simp [Lexeme.spell, Char.utf8Size]
        omega

theorem isLexeme_of_readPiece {c : Char} {rest : List Char} {piece : Piece}
    (h : readPiece locate names offset c rest = .ok piece) :
    IsLexeme locate offset (c :: rest) piece := by
  unfold readPiece at h
  split at h
  · next hc =>
      subst hc
      split at h
      · cases h
      · exact isLexeme_of_readBang h
      · exact isLexeme_of_readInstruction h
      · exact isLexeme_of_readClosed h
      · next hbang hquestion hslash => exact isLexeme_of_readOpened hbang hquestion hslash h
  · next hc =>
      obtain ⟨s, -, rfl⟩ := exists_of_map_eq_ok h
      refine ⟨.text (c :: rest.takeWhile (· ≠ '<')), ?_, rfl, rfl⟩
      unfold lexeme?
      split <;> simp_all

/-- What reading makes of a start tag. -/
def StartTag.Opens (locate : Nat → Nat) (t : StartTag) (tag : Tag) : Prop :=
  ∃ event, openedEvent t.body (locate t.stop) = .ok event ∧ event.tag? = some tag

theorem exists_tag_of_openedEvent {body : List Char} {place : Nat} {event : Event}
    (h : openedEvent body place = .ok event) : ∃ tag, event.tag? = some tag := by
  unfold openedEvent at h
  split at h
  · obtain ⟨tag, -, rfl⟩ := exists_of_map_eq_ok h
    exact ⟨tag, rfl⟩
  · obtain ⟨tag, -, rfl⟩ := exists_of_map_eq_ok h
    exact ⟨tag, rfl⟩

/-- A text that is read without a fault has lexemes, and the tags that it has been read as are
those of the start tags among them. -/
theorem exists_lexes_of_readEvents (source text : List Char) :
    ∀ front, source = front ++ text → Text.bytes front = offset →
      (readEvents locate names offset text).fault = none →
        ∃ ls, Lexes text ls ∧
          List.Forall₂ (fun tag (t : StartTag) => t.StandsIn source ∧ t.Opens locate tag)
            ((readEvents locate names offset text).events.filterMap Event.tag?)
            (startTags offset ls) := by
  fun_induction readEvents locate names offset text with
  | case1 => exact fun front hsource hoffset hfault => ⟨[], .done, .nil⟩
  | case2 => exact fun front hsource hoffset hfault => nomatch hfault
  | case3 names offset c rest piece hpiece more ih =>
      intro front hsource hoffset hfault
      obtain ⟨l, hfirst, hsize, hgives⟩ := isLexeme_of_readPiece hpiece
      have htext := lexeme?_eq_append hfirst
      have hfront : source = (front ++ l.spell) ++ piece.rest := by
        rw [hsource, htext, List.append_assoc]
      have hplace : Text.bytes (front ++ l.spell) = offset + piece.size := by
        rw [Text.bytes_append, hoffset, hsize]
      obtain ⟨ls, hls, hmore⟩ := ih _ hfront hplace hfault
      refine ⟨l :: ls, .next hfirst hls, ?_⟩
      unfold Gives at hgives
      split at hgives
      · next hnone =>
          rw [List.filterMap_cons_none hgives, startTags, hnone, ← hsize]
          exact hmore
      · next body hbody =>
          obtain ⟨tag, htag⟩ := exists_tag_of_openedEvent hgives
          obtain rfl : l = .startTag body := by
            cases l <;> simp_all [Lexeme.startTag?]
          rw [List.filterMap_cons_some htag, startTags, ← hsize]
          refine .cons ⟨⟨front, piece.rest, hfront, hoffset⟩, piece.event, ?_, htag⟩ hmore
          rw [StartTag.stop, StartTag.spell, ← hsize]
          exact hgives

end Reading

end ClassSkeleton.Markup
