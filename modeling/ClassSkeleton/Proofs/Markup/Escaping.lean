import ClassSkeleton.Markup.Print
import ClassSkeleton.Markup.Entity

namespace ClassSkeleton.Markup

/-!
# Escaped text reads back

A character is written as itself or as an entity that stands for it. So what is written for a
text holds nothing that would end it, and reading its entities gives the text again.
-/

@[simp] theorem escape_nil (inAttribute : Bool) : escape inAttribute [] = [] := rfl

@[simp] theorem escape_cons (inAttribute : Bool) (c : Char) (text : List Char) :
    escape inAttribute (c :: text) = escapeChar inAttribute c ++ escape inAttribute text := rfl

@[simp] theorem escape_append (inAttribute : Bool) (text rest : List Char) :
    escape inAttribute (text ++ rest) = escape inAttribute text ++ escape inAttribute rest :=
  List.flatMap_append

/-- The two ways in which a character is written. -/
inductive Written (inAttribute : Bool) (c : Char) : List Char → Prop
  | entity (name : List Char) (letters : name.all Char.isAlpha = true)
      (stands : ∀ start, entity start name = .ok c) : Written inAttribute c ('&' :: name ++ [';'])
  | itself (notAmp : c ≠ '&') (notLt : c ≠ '<') (notGt : c ≠ '>')
      (notQuote : inAttribute = true → c ≠ '"') : Written inAttribute c [c]

theorem written_escapeChar (inAttribute : Bool) (c : Char) :
    Written inAttribute c (escapeChar inAttribute c) := by
  unfold escapeChar
  split
  · exact .entity ['a', 'm', 'p'] (by decide) fun _ => rfl
  · exact .entity ['l', 't'] (by decide) fun _ => rfl
  · exact .entity ['g', 't'] (by decide) fun _ => rfl
  · cases inAttribute with
    | true => exact .entity ['q', 'u', 'o', 't'] (by decide) fun _ => rfl
    | false => exact .itself (by decide) (by decide) (by decide) nofun
  · next hamp hlt hgt hquote => exact .itself hamp hlt hgt fun _ => hquote

theorem ne_nil_of_written {inAttribute : Bool} {c : Char} {text : List Char}
    (h : Written inAttribute c text) : text ≠ [] := by
  cases h <;> simp

/-- The brackets of tags are never written, and in an attribute no double quote is. -/
theorem not_mem_escape {inAttribute : Bool} {d : Char}
    (hd : d = '<' ∨ d = '>' ∨ d = '"' ∧ inAttribute = true) (text : List Char) :
    d ∉ escape inAttribute text := by
  intro hmem
  obtain ⟨c, -, hc⟩ := List.mem_flatMap.mp hmem
  have hwritten := written_escapeChar inAttribute c
  generalize escapeChar inAttribute c = written at hc hwritten
  cases hwritten with
  | entity name letters _ =>
      have hletter : d ∉ name := fun hname => by
        have halpha := List.all_eq_true.mp letters d hname
        rcases hd with rfl | rfl | ⟨rfl, -⟩ <;> simp at halpha
      have hmark : d ≠ '&' ∧ d ≠ ';' := by rcases hd with rfl | rfl | ⟨rfl, -⟩ <;> decide
      simp [hletter, hmark.1, hmark.2] at hc
  | itself _ notLt notGt notQuote =>
      obtain rfl := List.mem_singleton.mp hc
      rcases hd with rfl | rfl | ⟨rfl, hin⟩
      · exact notLt rfl
      · exact notGt rfl
      · exact notQuote hin rfl

theorem entityName?_append {name : List Char} (h : name.all Char.isAlpha = true)
    (rest : List Char) : entityName? (name ++ ';' :: rest) = some name := by
  induction name with
  | nil => rfl
  | cons c name ih =>
      obtain ⟨hc, hname⟩ := Bool.and_eq_true_iff.mp h
      have hsemi : c ≠ ';' := by rintro rfl; simp at hc
      have hamp : c ≠ '&' := by rintro rfl; simp at hc
      simp [entityName?, hsemi, hamp, ih hname]

/-- The characters of an entity that has been replaced are passed over. -/
theorem unescapeFrom_length_append (place : Nat) (passed rest : List Char) :
    unescapeFrom place passed.length (passed ++ rest) =
      unescapeFrom (place + Text.bytes passed) 0 rest := by
  induction passed generalizing place with
  | nil => rfl
  | cons c passed ih =>
      rw [List.length_cons, List.cons_append, unescapeFrom, ih, Text.bytes_cons, Nat.add_assoc]

theorem unescapeFrom_written {inAttribute : Bool} {c : Char} {written : List Char}
    (h : Written inAttribute c written) (place : Nat) (rest : List Char) :
    ∃ next, unescapeFrom place 0 (written ++ rest) =
      (unescapeFrom next 0 rest).map (c :: ·) := by
  cases h with
  | entity name letters stands =>
      refine ⟨place + 1 + Text.bytes (name ++ [';']), ?_⟩
      have hpassed := unescapeFrom_length_append (place + 1) (name ++ [';']) rest
      rw [List.length_append, List.length_singleton, List.append_assoc,
        List.singleton_append] at hpassed
      rw [List.append_assoc, List.cons_append, List.singleton_append, unescapeFrom, if_pos rfl]
      simp only [entityName?_append letters, stands, hpassed]
      cases unescapeFrom (place + 1 + Text.bytes (name ++ [';'])) 0 rest <;> rfl
  | itself notAmp _ _ _ =>
      refine ⟨place + c.utf8Size, ?_⟩
      rw [List.singleton_append, unescapeFrom, if_neg notAmp]
      cases unescapeFrom (place + c.utf8Size) 0 rest <;> rfl

theorem unescapeFrom_escape (inAttribute : Bool) (place : Nat) (text : List Char) :
    unescapeFrom place 0 (escape inAttribute text) = .ok text := by
  induction text generalizing place with
  | nil => rfl
  | cons c text ih =>
      obtain ⟨next, hnext⟩ := unescapeFrom_written (written_escapeChar inAttribute c) place
        (escape inAttribute text)
      rw [escape_cons, hnext, ih]
      rfl

theorem unescape_escape (inAttribute : Bool) (text : List Char) :
    unescape (escape inAttribute text) = .ok text := unescapeFrom_escape inAttribute 0 text

end ClassSkeleton.Markup
