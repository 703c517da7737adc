import ClassSkeleton.Compile
import ClassSkeleton.Proofs.Json.Reading

namespace ClassSkeleton

/-!
# Reports

What a document compiles to is printed as an object with its units and the messages of its
problems. A reader that knows these fields by their names gets all of them back, whatever the
code and the messages hold.
-/

open Json (Decodes Fills Complete)
open Skeleton (SourceUnit)

namespace Skeleton.SourceUnit

structure Draft where
  code : Option String
  fileName : Option String
  name : Option String

def fields : List (Json.Field Draft) := [
  ⟨"code", true, fun d => d.code.isSome,
    fun d => do return { d with code := some (← Json.readString) }⟩,
  ⟨"file_name", true, fun d => d.fileName.isSome,
    fun d => do return { d with fileName := some (← Json.readString) }⟩,
  ⟨"name", true, fun d => d.name.isSome,
    fun d => do return { d with name := some (← Json.readString) }⟩]

def read : Json.Reading SourceUnit := do
  let draft ← Json.readRecord "a unit" fields ⟨none, none, none⟩
  return ⟨draft.name.getD "", draft.fileName.getD "", draft.code.getD ""⟩

def toJson (u : SourceUnit) : Json.Value :=
  .object [("code", .string u.code), ("file_name", .string u.fileName), ("name", .string u.name)]

theorem decodes_read (u : SourceUnit) : Decodes read u.toJson u := by
  have hfills : Fills fields ⟨none, none, none⟩
      [("code", .string u.code), ("file_name", .string u.fileName), ("name", .string u.name)]
      ⟨some u.code, some u.fileName, some u.name⟩ := by
    refine .cons (by rfl) rfl ((Json.decodes_readString u.code).map _) ?_
    refine .cons (by rfl) rfl ((Json.decodes_readString u.fileName).map _) ?_
    exact .cons (by rfl) rfl ((Json.decodes_readString u.name).map _) (.nil _)
  have hcomplete : Complete fields ⟨some u.code, some u.fileName, some u.name⟩ := by
    simp [Complete, fields]
  exact (Json.decodes_readRecord "a unit" hfills hcomplete).map fun draft =>
    (⟨draft.name.getD "", draft.fileName.getD "", draft.code.getD ""⟩ : SourceUnit)

end Skeleton.SourceUnit

/-- The units of a document and what was wrong with the other classes. -/
structure Report where
  units : List SourceUnit
  errors : List String

namespace Report

structure Draft where
  units : Option (List SourceUnit)
  errors : Option (List String)

def fields : List (Json.Field Draft) := [
  ⟨"classes", true, fun d => d.units.isSome,
    fun d => do return { d with units := some (← Json.readList SourceUnit.read) }⟩,
  ⟨"errors", true, fun d => d.errors.isSome,
    fun d => do return { d with errors := some (← Json.readList Json.readString) }⟩]

def read : Json.Reading Report := do
  let draft ← Json.readRecord "a report" fields ⟨none, none⟩
  return ⟨draft.units.getD [], draft.errors.getD []⟩

def ofCompiled (c : Compiled) : Report := ⟨c.units, c.problems.map Problem.message⟩

theorem decodes_read (c : Compiled) : Decodes read c.toJson (ofCompiled c) := by
  have hunits : List.Forall₂ (Decodes SourceUnit.read) (c.units.map SourceUnit.toJson)
      c.units := by
    rw [List.forall₂_map_left_iff, List.forall₂_same]
    exact fun u _ => u.decodes_read
  have herrors : List.Forall₂ (Decodes Json.readString)
      (c.problems.map fun p => .string p.message) (c.problems.map Problem.message) := by
    rw [List.forall₂_map_left_iff, List.forall₂_map_right_iff, List.forall₂_same]
    exact fun p _ => Json.decodes_readString p.message
  have hfills : Fills fields ⟨none, none⟩
      [("classes", .array (c.units.map SourceUnit.toJson)),
        ("errors", .array (c.problems.map fun p => .string p.message))]
      ⟨some c.units, some (c.problems.map Problem.message)⟩ := by
    refine .cons (by rfl) rfl ((Json.decodes_readList hunits).map _) ?_
    exact .cons (by rfl) rfl ((Json.decodes_readList herrors).map _) (.nil _)
  have hcomplete : Complete fields ⟨some c.units, some (c.problems.map Problem.message)⟩ := by
    simp [Complete, fields]
  exact (Json.decodes_readRecord "a report" hfills hcomplete).map fun draft =>
    (⟨draft.units.getD [], draft.errors.getD []⟩ : Report)

/-- The printed line is read as the report of what has been compiled. -/
theorem readDocument_compact (c : Compiled) :
    Json.readDocument read (String.ofList c.toJson.compact ++ "\n") = .ok (ofCompiled c) := by
  have hfeed : Json.Blank ['\n'] := Json.blank_lineBreak 0
  have hread := (decodes_read c).readDocument c.toJson.spells_compact hfeed
  rw [String.ofList_append] at hread
  exact hread

end Report

end ClassSkeleton
