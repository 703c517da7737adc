import ClassSkeleton.Json.Cursor
import ClassSkeleton.Json.Value

namespace ClassSkeleton.Json

/-!
# The texts that spell a value

Blanks may stand around every part of an array or an object. Both printed forms of a value are
spellings of it.
-/

def Blank (text : List Char) : Prop := ∀ c ∈ text, Cursor.isBlank c = true

theorem blank_nil : Blank [] := by simp [Blank]

theorem blank_space : Blank [' '] := by simp [Blank, Cursor.isBlank]

theorem Blank.tail {c : Char} {text : List Char} (h : Blank (c :: text)) : Blank text :=
  fun d hd => h d (List.mem_cons_of_mem c hd)

theorem blank_lineBreak (level : Nat) : Blank (Value.lineBreak level) := by
  intro c hc
  rcases List.mem_cons.mp hc with rfl | hc
  · rfl
  · rw [List.eq_of_mem_replicate hc]
    rfl

/-- What stands in front of an element or a member: blanks, with a comma among them unless it is
the first one. -/
inductive Lead : Bool → List Char → Prop
  | first {blanks : List Char} (h : Blank blanks) : Lead true blanks
  | later {before behind : List Char} (h : Blank before) (h' : Blank behind) :
      Lead false (before ++ ',' :: behind)

mutual

inductive Spells : Value → List Char → Prop
  | bool (b : Bool) : Spells (.bool b) (toString b).toList
  | string (s : String) : Spells (.string s) (literal s)
  | array {vs : List Value} {inside : List Char} (h : SpellsElements true vs inside) :
      Spells (.array vs) ('[' :: inside)
  | object {members : List (String × Value)} {inside : List Char}
      (h : SpellsMembers true members inside) : Spells (.object members) ('\x7b' :: inside)

inductive SpellsElements : Bool → List Value → List Char → Prop
  | stop {first : Bool} {blanks : List Char} (h : Blank blanks) :
      SpellsElements first [] (blanks ++ [']'])
  | cons {first : Bool} {lead text rest : List Char} {v : Value} {vs : List Value}
      (before : Lead first lead) (value : Spells v text) (tail : SpellsElements false vs rest) :
      SpellsElements first (v :: vs) (lead ++ text ++ rest)

inductive SpellsMembers : Bool → List (String × Value) → List Char → Prop
  | stop {first : Bool} {blanks : List Char} (h : Blank blanks) :
      SpellsMembers first [] (blanks ++ ['\x7d'])
  | cons {first : Bool} {lead gap space text rest : List Char} {key : String} {v : Value}
      {members : List (String × Value)} (before : Lead first lead) (hgap : Blank gap)
      (hspace : Blank space) (value : Spells v text) (tail : SpellsMembers false members rest) :
      SpellsMembers first ((key, v) :: members)
        (lead ++ literal key ++ gap ++ ':' :: space ++ text ++ rest)

end

/-- Behind a comma the elements may follow others. -/
theorem SpellsElements.later {v : Value} {vs : List Value} {text : List Char}
    (h : SpellsElements true (v :: vs) text) : SpellsElements false (v :: vs) (',' :: text) := by
  cases h with
  | cons before value tail =>
      cases before with
      | first hblank => exact .cons (.later blank_nil hblank) value tail

theorem SpellsMembers.later {member : String × Value} {members : List (String × Value)}
    {text : List Char} (h : SpellsMembers true (member :: members) text) :
    SpellsMembers false (member :: members) (',' :: text) := by
  cases h with
  | cons before hgap hspace value tail =>
      cases before with
      | first hblank => exact .cons (.later blank_nil hblank) hgap hspace value tail

namespace Value

mutual

theorem spells_compact (v : Value) : Spells v v.compact := by
  match v with
  | .bool b => exact .bool b
  | .string s => exact .string s
  | .array vs => exact .array (spells_compactElements vs)
  | .object members => exact .object (spells_compactMembers members)

theorem spells_compactElements (vs : List Value) :
    SpellsElements true vs (compactElements vs ++ [']']) := by
  match vs with
  | [] => exact .stop blank_nil
  | [v] => exact .cons (.first blank_nil) (spells_compact v) (.stop blank_nil)
  | v :: w :: rest =>
      have hrest := (spells_compactElements (w :: rest)).later
      have hall := SpellsElements.cons (.first blank_nil) (spells_compact v) hrest
      simpa [compactElements] using hall

theorem spells_compactMembers (members : List (String × Value)) :
    SpellsMembers true members (compactMembers members ++ ['\x7d']) := by
  match members with
  | [] => exact .stop blank_nil
  | [(key, v)] =>
      have hone : SpellsMembers true [(key, v)] _ :=
        .cons (.first blank_nil) blank_nil blank_nil (spells_compact v) (.stop blank_nil)
      simpa [compactMembers] using hone
  | (key, v) :: member :: rest =>
      have hrest := (spells_compactMembers (member :: rest)).later
      have hall : SpellsMembers true ((key, v) :: member :: rest) _ :=
        .cons (.first blank_nil) blank_nil blank_nil (spells_compact v) hrest
      simpa [compactMembers] using hall

end

mutual

theorem spells_indented (level : Nat) (v : Value) : Spells v (v.indented level) := by
  match v with
  | .bool b => exact .bool b
  | .string s => exact .string s
  | .array [] => exact .array (.stop blank_nil)
  | .array (v :: rest) =>
      have hrest := spells_indentedElements (level + 1) rest (blank_lineBreak level)
      have hall := SpellsElements.cons (.first (blank_lineBreak (level + 1)))
        (spells_indented (level + 1) v) hrest
      simpa [indented] using Spells.array hall
  | .object [] => exact .object (.stop blank_nil)
  | .object ((key, v) :: rest) =>
      have hrest := spells_indentedMembers (level + 1) rest (blank_lineBreak level)
      have hall : SpellsMembers true ((key, v) :: rest) _ :=
        .cons (.first (blank_lineBreak (level + 1))) blank_nil blank_space
          (spells_indented (level + 1) v) hrest
      simpa [indented] using Spells.object hall

theorem spells_indentedElements (level : Nat) (vs : List Value) {blanks : List Char}
    (h : Blank blanks) :
    SpellsElements false vs (indentedElements level vs ++ blanks ++ [']']) := by
  match vs with
  | [] => exact .stop h
  | v :: rest =>
      have hall := SpellsElements.cons (.later blank_nil (blank_lineBreak level))
        (spells_indented level v) (spells_indentedElements level rest h)
      simpa [indentedElements] using hall

theorem spells_indentedMembers (level : Nat) (members : List (String × Value))
    {blanks : List Char} (h : Blank blanks) :
    SpellsMembers false members (indentedMembers level members ++ blanks ++ ['\x7d']) := by
  match members with
  | [] => exact .stop h
  | (key, v) :: rest =>
      have hall : SpellsMembers false ((key, v) :: rest) _ :=
        .cons (.later blank_nil (blank_lineBreak level)) blank_nil blank_space
          (spells_indented level v) (spells_indentedMembers level rest h)
      simpa [indentedMembers] using hall

end

end Value

end ClassSkeleton.Json
