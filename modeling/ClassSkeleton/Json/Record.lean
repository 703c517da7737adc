import ClassSkeleton.Json.Cursor

namespace ClassSkeleton.Json

/-!
# Records and lists

A record is written as an object, its fields in any order, or as an array of its fields from
the first on. No field may come twice, and none that is unknown.
-/

/-- A field of a record under construction in `σ`. -/
structure Field (σ : Type) where
  name : String
  isRequired : Bool
  isSet : σ → Bool
  read : σ → Reading σ

/-- Reports a fault of a whole object, once its closing brace has been looked for. -/
def failObject {α : Type} (cause : Cause) : Reading α := do
  if (← peekItem?) = some '\x7d' then bump
  fail cause

/-- Reports a fault of a whole array, once its closing bracket has been looked for. -/
def failArray {α : Type} (cause : Cause) : Reading α := do
  match ← peekItem? with
  | some ']' => bump
  | some ',' =>
    bump
    let _ ← peekItem?
  | _ => pure ()
  fail cause

/-- Whether another member follows. Its opening quote is taken. -/
def readMemberStart (first : Bool) : Reading Bool := do
  let start : Option Char → Reading Bool
    | some '"' => do
      bump
      return true
    | some '\x7d' => failBeyond .trailingComma
    | some _ => failBeyond .keyNoString
    | none => failBeyond .endOfValue
  match ← peekItem? with
  | none => failBeyond .endOfObject
  | some '\x7d' => return false
  | some c =>
    if first then start (some c)
    else if c = ',' then
      bump
      start (← peekItem?)
    else failBeyond .expectedObjectComma

def readColon : Reading Unit := do
  match ← peekItem? with
  | some ':' => bump
  | some _ => failBeyond .expectedColon
  | none => failBeyond .endOfObject

/-- Whether another element follows. -/
def readElementStart (first : Bool) : Reading Bool := do
  let start : Option Char → Reading Bool
    | some ']' => failBeyond .trailingComma
    | some _ => return true
    | none => failBeyond .endOfValue
  match ← peekItem? with
  | none => failBeyond .endOfList
  | some ']' => return false
  | some c =>
    if first then start (some c)
    else if c = ',' then
      bump
      start (← peekItem?)
    else failBeyond .expectedListComma

/-- The end of an array after its last element. -/
def readArrayEnd : Reading Unit := do
  match ← peekItem? with
  | some ']' => bump
  | some ',' =>
    bump
    if (← peekItem?) = some ']' then failBeyond .trailingComma
    else failBeyond .trailingCharacters
  | some _ => failBeyond .trailingCharacters
  | none => failBeyond .endOfList

def readMembers {σ : Type} (fields : List (Field σ)) : Nat → Bool → σ → Reading σ
  | 0, _, _ => fail .endOfObject
  | fuel + 1, first, record => do
    if ← readMemberStart first then
      let key ← readText
      match fields.find? (·.name = key) with
      | none => failObject (.unknownField key (fields.map (·.name)))
      | some field =>
        if field.isSet record then failObject (.duplicateField key)
        else
          readColon
          readMembers fields fuel false (← field.read record)
    else
      match fields.find? fun field => field.isRequired && !field.isSet record with
      | some field => failObject (.missingField field.name)
      | none =>
        bump
        return record

/-- Reads the fields that an array gives. The ones it does not give have to be optional. -/
def readPositions {σ : Type} (name : String) (count : Nat) :
    List (Field σ) → Bool → σ → Reading σ
  | [], _, record => return record
  | field :: rest, first, record => do
    if ← readElementStart first then
      readPositions name count rest false (← field.read record)
    else if field.isRequired then failArray (.invalidLength (count - rest.length - 1) name count)
    else readPositions name count rest first record

def readRecord {σ : Type} (name : String) (fields : List (Field σ)) (empty : σ) : Reading σ := do
  match ← peekValue with
  | '\x7b' =>
    bump
    readMembers fields ((← get).rest.length + 1) true empty
  | '[' =>
    bump
    let record ← readPositions name fields.length fields true empty
    readArrayEnd
    return record
  | _ => refuse name

def readElements {α : Type} (read : Reading α) : Nat → Bool → Reading (List α)
  | 0, _ => fail .endOfList
  | fuel + 1, first => do
    if ← readElementStart first then
      return (← read) :: (← readElements read fuel false)
    else
      bump
      return []

def readList {α : Type} (read : Reading α) : Reading (List α) := do
  if (← peekValue) = '[' then
    bump
    readElements read ((← get).rest.length + 1) true
  else refuse "a sequence"

/-- Reads a whole document, which holds one value and nothing behind it. -/
def readDocument {α : Type} (read : Reading α) (text : String) : Except Fault α := do
  let (value, cursor) ← read.run (.start text.toList)
  let cursor := cursor.skipBlanks
  if cursor.rest.isEmpty then .ok value else .error (cursor.faultBeyond .trailingCharacters)

end ClassSkeleton.Json
