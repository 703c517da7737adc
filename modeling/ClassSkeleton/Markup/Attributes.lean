import ClassSkeleton.Markup.Element
import ClassSkeleton.Markup.Entity

namespace ClassSkeleton.Markup

/-!
# Tags and their attributes

Inside a tag a quoted value may hold any character, closing brackets included. Attributes are
read from left to right, each one completely before the next: its key, then whether the key
has been used, then its value.
-/

def isSpace (c : Char) : Bool := c = ' ' || c = '\t' || c = '\r' || c = '\n'

/-- What stands before and behind the `>` that closes a tag. Inside quotes none does. -/
def cutTag? (quote : Option Char) : List Char → Option (List Char × List Char)
  | [] => none
  | c :: rest =>
    match quote with
    | some q =>
      (cutTag? (if c = q then none else some q) rest).map fun cut => (c :: cut.1, cut.2)
    | none =>
      if c = '>' then some ([], rest)
      else
        (cutTag? (if c = '"' ∨ c = '\'' then some c else none) rest).map fun cut =>
          (c :: cut.1, cut.2)

theorem cutTag?_eq_append {quote : Option Char} {text content rest : List Char}
    (h : cutTag? quote text = some (content, rest)) : text = content ++ '>' :: rest := by
  induction text generalizing quote content with
  | nil => simp [cutTag?] at h
  | cons c text ih =>
    unfold cutTag? at h
    split at h
    · obtain ⟨cut, hcut, heq⟩ := Option.map_eq_some_iff.mp h
      obtain ⟨rfl, rfl⟩ := Prod.mk.inj heq
      simp [ih hcut]
    · split at h
      · next hc =>
        obtain ⟨rfl, rfl⟩ := Prod.mk.inj (Option.some.inj h)
        simp [hc]
      · obtain ⟨cut, hcut, heq⟩ := Option.map_eq_some_iff.mp h
        obtain ⟨rfl, rfl⟩ := Prod.mk.inj heq
        simp [ih hcut]

def isKeyEnd (c : Char) : Bool := c = '=' || isSpace c

/-- An attribute as it stands in a tag, its value still with entities. -/
structure RawAttribute where
  key : List Char
  value : List Char
  place : Nat

/-- Reads one attribute from a text that begins with its key. The first character belongs to
the key whatever it is. -/
def readAttribute (place : Nat) (seen : List (List Char × Nat)) (first : Char)
    (text : List Char) : Except Cause (RawAttribute × List Char) :=
  let stop := place + first.utf8Size + Text.bytes text
  let key := first :: text.takeWhile fun c => !isKeyEnd c
  let behind := text.dropWhile fun c => !isKeyEnd c
  match behind.dropWhile isSpace with
  | [] => .error (.keyAlone stop)
  | '=' :: value =>
    match seen.lookup key with
    | some previous => .error (.duplicateKey place previous)
    | none =>
      match value.dropWhile isSpace with
      | [] => .error (.missingValue stop)
      | quote :: body =>
        if quote = '"' ∨ quote = '\'' then
          match Text.cutAt? [quote] body with
          | none => .error (.unclosedValue stop quote)
          | some (value, rest) => .ok (⟨key, value, place⟩, rest)
        else .error (.unquotedValue (stop - Text.bytes (quote :: body)))
  | rest => .error (.keyAlone (stop - Text.bytes rest))

theorem length_of_readAttribute {place : Nat} {seen : List (List Char × Nat)} {first : Char}
    {text rest : List Char} {raw : RawAttribute}
    (h : readAttribute place seen first text = .ok (raw, rest)) : rest.length < text.length := by
  unfold readAttribute at h
  simp only at h
  have hbehind : (text.dropWhile fun c => !isKeyEnd c).length ≤ text.length :=
    (List.dropWhile_suffix _).length_le
  split at h
  · simp at h
  · next value hvalue =>
    have h₁ : ('=' :: value).length ≤ (text.dropWhile fun c => !isKeyEnd c).length :=
      hvalue ▸ (List.dropWhile_suffix _).length_le
    split at h
    · simp at h
    · split at h
      · simp at h
      · next quote body hbody =>
        have h₂ : (quote :: body).length ≤ value.length :=
          hbody ▸ (List.dropWhile_suffix _).length_le
        split at h
        · split at h
          · simp at h
          · next found tail hcut =>
            obtain ⟨-, rfl⟩ := Prod.mk.inj (Except.ok.inj h)
            have h₃ := congrArg List.length (Text.cutAt?_eq_append hcut)
            simp only [List.length_append, List.length_cons] at h₁ h₂ h₃
            omega
        · simp at h
  · simp at h

/-- Reads the attributes of a tag from a place of it on. -/
def readAttributes (place : Nat) (seen : List (List Char × Nat)) (text : List Char) :
    Except Cause (List (String × String)) :=
  match _text : text.dropWhile isSpace with
  | [] => .ok []
  | first :: more =>
    let start := place + Text.bytes (text.takeWhile isSpace)
    match _read : readAttribute start seen first more with
    | .error cause => .error cause
    | .ok (raw, rest) => do
      let value ← unescape raw.value
      let next := start + first.utf8Size + Text.bytes more - Text.bytes rest
      let others ← readAttributes next ((raw.key, raw.place) :: seen) rest
      return (String.ofList raw.key, String.ofList value) :: others
termination_by text.length
decreasing_by
  have h₁ := length_of_readAttribute _read
  have h₂ : (first :: more).length ≤ text.length :=
    _text ▸ (List.dropWhile_suffix _).length_le
  simp only [List.length_cons] at h₂
  omega

/-- The name and the attributes of a tag from the text between its brackets. -/
def readTag (content : List Char) (offset : Nat) : Except Cause Tag := do
  let name := content.takeWhile fun c => !isSpace c
  let attributes ←
    readAttributes (Text.bytes name) [] (content.dropWhile fun c => !isSpace c)
  return ⟨String.ofList name, attributes, offset⟩

end ClassSkeleton.Markup
