import ClassSkeleton.Markup.Event
import ClassSkeleton.Proofs.Markup.Escaping

namespace ClassSkeleton.Markup

/-!
# Tags read back

A tag whose names hold no mark of a tag is read back from its text: the search for its end
passes over it, and its attributes are found one by one.
-/

/-- A character that neither ends a name nor begins anything else inside a tag. -/
def isNameChar (c : Char) : Bool :=
  !isSpace c && !(['"', '\'', '=', '/', '<', '>'].contains c)

def IsName (name : String) : Prop :=
  name.toList ≠ [] ∧ ∀ c ∈ name.toList, isNameChar c = true

-- The characters of a name are tried one by one, not those of the whole type.
instance (name : String) : Decidable (IsName name) :=
  decidable_of_iff (name.toList ≠ [] ∧ name.toList.all isNameChar = true)
    (and_congr_right fun _ => List.all_eq_true)

/-- What the names of a tag have to be for its text to mean it. -/
structure Tag.WellNamed (tag : Tag) : Prop where
  name : IsName tag.name
  notBang : tag.name.toList.head? ≠ some '!'
  notQuestion : tag.name.toList.head? ≠ some '?'
  keys : ∀ pair ∈ tag.attributes, IsName pair.1
  distinct : (tag.attributes.map Prod.fst).Nodup

def Tag.content (tag : Tag) : List Char :=
  tag.name.toList ++ tag.attributes.flatMap attributeText

theorem Tag.text_eq (tag : Tag) : tag.text = '<' :: tag.content := rfl

theorem isNameChar_iff {c : Char} : isNameChar c = true ↔
    isSpace c = false ∧ c ≠ '"' ∧ c ≠ '\'' ∧ c ≠ '=' ∧ c ≠ '/' ∧ c ≠ '<' ∧ c ≠ '>' := by
  simp [isNameChar]

section Cutting

/-- Whether the search for the end of a tag passes over a text and is outside quotes again. -/
def Passed (text : List Char) : Prop :=
  ∀ rest, cutTag? none (text ++ rest) = (cutTag? none rest).map fun cut => (text ++ cut.1, cut.2)

theorem Passed.append {text more : List Char} (h : Passed text) (hmore : Passed more) :
    Passed (text ++ more) := by
  intro rest
  rw [List.append_assoc, h, hmore, Option.map_map]
  simp [Function.comp_def]

theorem Passed.nil : Passed [] := fun rest => by simp

theorem Passed.single {c : Char} (hgt : c ≠ '>') (hdouble : c ≠ '"') (hsingle : c ≠ '\'') :
    Passed [c] := fun rest => by simp [cutTag?, hgt, hdouble, hsingle]

theorem Passed.flatMap {α : Type} {f : α → List Char} {xs : List α}
    (h : ∀ x ∈ xs, Passed (f x)) : Passed (xs.flatMap f) := by
  induction xs with
  | nil => exact .nil
  | cons x xs ih =>
      exact (h x List.mem_cons_self).append (ih fun y hy => h y (List.mem_cons_of_mem x hy))

theorem passed_of_isName {name : List Char} (h : ∀ c ∈ name, isNameChar c = true) :
    Passed name := by
  induction name with
  | nil => exact .nil
  | cons c name ih =>
      obtain ⟨-, hdouble, hsingle, -, -, -, hgt⟩ := isNameChar_iff.mp (h c List.mem_cons_self)
      exact (Passed.single hgt hdouble hsingle).append
        (ih fun d hd => h d (List.mem_cons_of_mem c hd))

theorem cutTag?_quoted {quote : Char} {value : List Char} (h : quote ∉ value)
    (rest : List Char) :
    cutTag? (some quote) (value ++ quote :: rest) =
      (cutTag? none rest).map fun cut => (value ++ quote :: cut.1, cut.2) := by
  induction value with
  | nil => simp [cutTag?]
  | cons c value ih =>
      obtain ⟨hc, hvalue⟩ := not_or.mp (mt List.mem_cons.mpr h)
      simp [cutTag?, Ne.symm hc, ih hvalue, Function.comp_def]

theorem passed_quoted {value : List Char} (h : '"' ∉ value) : Passed ('"' :: value ++ ['"']) := by
  intro rest
  rw [List.append_assoc, List.cons_append, cutTag?]
  simp [cutTag?_quoted h, Function.comp_def]

theorem passed_attributeText {pair : String × String} (h : IsName pair.1) :
    Passed (attributeText pair) := by
  have hvalue : '"' ∉ escape true pair.2.toList := not_mem_escape (.inr (.inr ⟨rfl, rfl⟩)) _
  have hspace : Passed [' '] := .single (by decide) (by decide) (by decide)
  have hequals : Passed ['='] := .single (by decide) (by decide) (by decide)
  have hall := ((hspace.append (passed_of_isName h.2)).append hequals).append (passed_quoted hvalue)
  simpa [attributeText] using hall

theorem Tag.WellNamed.passed_content {tag : Tag} (h : tag.WellNamed) : Passed tag.content :=
  (passed_of_isName h.name.2).append
    (.flatMap fun pair hpair => passed_attributeText (h.keys pair hpair))

theorem Passed.cutTag?_append {text : List Char} (h : Passed text) (rest : List Char) :
    cutTag? none (text ++ '>' :: rest) = some (text, rest) := by
  rw [h]
  simp [cutTag?]

end Cutting

section Attributes

theorem cutAt?_singleton {sep : Char} {before : List Char} (h : sep ∉ before)
    (behind : List Char) :
    Text.cutAt? [sep] (before ++ sep :: behind) = some (before, behind) := by
  induction before with
  | nil => simp [Text.cutAt?]
  | cons c before ih =>
      obtain ⟨hc, hbefore⟩ := not_or.mp (mt List.mem_cons.mpr h)
      simp [Text.cutAt?, ih hbefore, hc]

theorem not_isSpace_of_isNameChar {c : Char} (h : isNameChar c = true) : isSpace c = false :=
  (isNameChar_iff.mp h).1

theorem not_isKeyEnd_of_isNameChar {c : Char} (h : isNameChar c = true) :
    isKeyEnd c = false := by
  obtain ⟨hspace, -, -, hequals, -⟩ := isNameChar_iff.mp h
  simp [isKeyEnd, hspace, hequals]

theorem readAttribute_attributeText {place : Nat} {seen : List (List Char × Nat)} {first : Char}
    {key : List Char} (hkey : ∀ c ∈ key, isNameChar c = true)
    (hseen : seen.lookup (first :: key) = none) (value rest : List Char) :
    readAttribute place seen first (key ++ '=' :: '"' :: escape true value ++ '"' :: rest) =
      .ok (⟨first :: key, escape true value, place⟩, rest) := by
  have hkeyChars : ∀ c ∈ key, (!isKeyEnd c) = true := fun c hc => by
    simp [not_isKeyEnd_of_isNameChar (hkey c hc)]
  have hvalue : '"' ∉ escape true value := not_mem_escape (.inr (.inr ⟨rfl, rfl⟩)) _
  have htake : (key ++ '=' :: '"' :: escape true value ++ '"' :: rest).takeWhile
      (fun c => !isKeyEnd c) = key := by
    rw [List.append_assoc, List.takeWhile_append_of_pos hkeyChars]
    simp [isKeyEnd]
  have hdrop : (key ++ '=' :: '"' :: escape true value ++ '"' :: rest).dropWhile
      (fun c => !isKeyEnd c) = '=' :: '"' :: escape true value ++ '"' :: rest := by
    rw [List.append_assoc, List.dropWhile_append_of_pos hkeyChars]
    simp [isKeyEnd]
  unfold readAttribute
  simp only [htake, hdrop]
  simp [isSpace, hseen, cutAt?_singleton hvalue]

theorem readAttributes_nil (place : Nat) (seen : List (List Char × Nat)) :
    readAttributes place seen [] = .ok [] := by
  rw [readAttributes]
  rfl

theorem readAttributes_of_readAttribute {place : Nat} {seen : List (List Char × Nat)}
    {text more rest : List Char} {first : Char} {raw : RawAttribute} {value : List Char}
    (htext : text.dropWhile isSpace = first :: more)
    (hread : readAttribute (place + Text.bytes (text.takeWhile isSpace)) seen first more =
      .ok (raw, rest))
    (hvalue : unescape raw.value = .ok value) :
    ∃ next, readAttributes place seen text =
      (readAttributes next ((raw.key, raw.place) :: seen) rest).map
        ((String.ofList raw.key, String.ofList value) :: ·) := by
  refine ⟨place + Text.bytes (text.takeWhile isSpace) + first.utf8Size + Text.bytes more -
    Text.bytes rest, ?_⟩
  rw [readAttributes]
  split
  · next hnil => simp [hnil] at htext
  · next first' more' hcons =>
      obtain ⟨rfl, rfl⟩ := List.cons.inj (htext.symm.trans hcons)
      simp only
      split
      · next hcause => simp [hread] at hcause
      · next raw' rest' hread' =>
          obtain ⟨rfl, rfl⟩ := Prod.mk.inj (Except.ok.inj (hread.symm.trans hread'))
          simp only [hvalue]
          cases readAttributes (place + Text.bytes (text.takeWhile isSpace) + first.utf8Size +
            Text.bytes more - Text.bytes rest) ((raw.key, raw.place) :: seen) rest <;> rfl

/-- Attributes in the text of a tag are read back if their keys differ from those before. -/
theorem readAttributes_flatMap (place : Nat) (seen : List (List Char × Nat))
    {attributes : List (String × String)} (hkeys : ∀ pair ∈ attributes, IsName pair.1)
    (hdistinct : (attributes.map Prod.fst).Nodup)
    (hnew : ∀ pair ∈ attributes, seen.lookup pair.1.toList = none) :
    readAttributes place seen (attributes.flatMap attributeText) = .ok attributes := by
  induction attributes generalizing place seen with
  | nil => exact readAttributes_nil place seen
  | cons pair attributes ih =>
      obtain ⟨hpair, hrest⟩ := List.forall_mem_cons.mp hkeys
      obtain ⟨hfresh, hothers⟩ := List.nodup_cons.mp hdistinct
      obtain ⟨hpairNew, hrestNew⟩ := List.forall_mem_cons.mp hnew
      obtain ⟨first, key, hname⟩ := List.exists_cons_of_ne_nil hpair.1
      rw [hname] at hpairNew
      have hchars := hpair.2
      rw [hname, List.forall_mem_cons] at hchars
      have htext : ((pair :: attributes).flatMap attributeText).dropWhile isSpace =
          first :: (key ++ '=' :: '"' :: escape true pair.2.toList ++
            '"' :: attributes.flatMap attributeText) := by
        have hblank : isSpace ' ' = true := rfl
        simp [attributeText, hname, hblank,
          not_isSpace_of_isNameChar hchars.1]
      obtain ⟨next, hnext⟩ := readAttributes_of_readAttribute htext
        (readAttribute_attributeText hchars.2 hpairNew pair.2.toList _)
        (unescape_escape true pair.2.toList)
      have hseen : ∀ other ∈ attributes, List.lookup other.1.toList
          ((first :: key, place + Text.bytes
            (((pair :: attributes).flatMap attributeText).takeWhile isSpace)) :: seen) = none := by
        intro other hother
        have hne : other.1.toList ≠ first :: key := fun heq =>
          hfresh (String.toList_inj.mp (hname.trans heq.symm) ▸ List.mem_map_of_mem hother)
        rw [List.lookup_cons, beq_false_of_ne hne]
        exact hrestNew other hother
      rw [hnext, ih _ _ hrest hothers hseen, ← hname]
      simp [Except.map]

theorem Tag.WellNamed.readTag_content {tag : Tag} (h : tag.WellNamed) (offset : Nat) :
    readTag tag.content offset = .ok { tag with offset } := by
  have hname : ∀ c ∈ tag.name.toList, (!isSpace c) = true := fun c hc => by
    simp [not_isSpace_of_isNameChar (h.name.2 c hc)]
  have hsplit : (tag.attributes.flatMap attributeText).takeWhile (fun c => !isSpace c) = [] ∧
      (tag.attributes.flatMap attributeText).dropWhile (fun c => !isSpace c) =
        tag.attributes.flatMap attributeText := by
    have hblank : isSpace ' ' = true := rfl
    cases tag.attributes with
    | nil => exact ⟨rfl, rfl⟩
    | cons pair attributes => simp [attributeText, hblank]
  have hattributes := readAttributes_flatMap (Text.bytes tag.name.toList) [] h.keys h.distinct
    fun _ _ => rfl
  unfold readTag
  rw [Tag.content, List.takeWhile_append_of_pos hname, List.dropWhile_append_of_pos hname,
    hsplit.1, hsplit.2, List.append_nil]
  simp [hattributes, bind, Except.bind, pure, Except.pure]

end Attributes

section Forms

theorem getLast?_attributeText (pair : String × String) :
    (attributeText pair).getLast? = some '"' := by
  rw [attributeText, List.getLast?_concat]

theorem getLast?_flatMap_attributeText {attributes : List (String × String)}
    (h : attributes ≠ []) : (attributes.flatMap attributeText).getLast? = some '"' := by
  obtain ⟨init, pair, rfl⟩ := (List.eq_nil_or_concat attributes).resolve_left h
  simp [getLast?_attributeText]

theorem Tag.WellNamed.getLast?_content {tag : Tag} (h : tag.WellNamed) :
    tag.content.getLast? ≠ some '/' := by
  by_cases hnone : tag.attributes = []
  · intro hlast
    rw [Tag.content, hnone, List.flatMap_nil, List.append_nil] at hlast
    have hslash := isNameChar_iff.mp (h.name.2 '/' (List.mem_of_getLast? hlast))
    exact hslash.2.2.2.2.1 rfl
  · rw [Tag.content, List.getLast?_append, getLast?_flatMap_attributeText hnone]
    simp

/-- The text of a tag opens an element, and with a slash behind it the element is complete. -/
theorem Tag.WellNamed.openedEvent_content {tag : Tag} (h : tag.WellNamed) (offset : Nat) :
    openedEvent tag.content offset = .ok (.opened { tag with offset }) ∧
      openedEvent (tag.content ++ ['/']) offset = .ok (.single { tag with offset }) := by
  constructor
  · rw [openedEvent, if_neg h.getLast?_content, h.readTag_content]
    rfl
  · rw [openedEvent, if_pos (by simp), List.dropLast_concat, h.readTag_content]
    rfl

end Forms

end ClassSkeleton.Markup
