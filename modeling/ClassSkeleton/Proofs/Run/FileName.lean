import ClassSkeleton.Run.Path
import Mathlib.Data.List.Basic

namespace ClassSkeleton.Run

/-!
# File names

A text without slashes that is neither empty nor one of the dotted names is a name of its own.
Below a folder it adds one component to the path of the folder, so different names in a folder
are different places.
-/

structure IsFileName (s : String) : Prop where
  nonempty : s ≠ ""
  noSlash : '/' ∉ s.toList
  notHere : s ≠ "."
  notUp : s ≠ ".."

namespace Path

theorem component?_of_isFileName {s : String} (h : IsFileName s) :
    component? s.toList = some (.name s) := by
  have hempty : s.toList ≠ [] := fun heq => h.nonempty (String.toList_injective heq)
  have hhere : s.toList ≠ ['.'] := fun heq => h.notHere (String.toList_injective heq)
  have hup : s.toList ≠ ['.', '.'] := fun heq => h.notUp (String.toList_injective heq)
  simp [component?, hempty, hhere, hup]

theorem head?_pieces_append (front : List Char) (more : List (List Char)) :
    (Run.pieces front ++ more).head? = (Run.pieces front).head? :=
  List.head?_append_of_ne_nil _ (pieces_ne_nil front)

theorem filterMap_pieces_nil : (Run.pieces []).filterMap component? = [] := by decide

/-- What follows a slash adds its own components. -/
theorem components_append_slash (front below : List Char) :
    (⟨String.ofList (front ++ '/' :: below)⟩ : Path).components =
      (⟨String.ofList (front ++ ['/'])⟩ : Path).components ++
        (Run.pieces below).filterMap component? := by
  have hroot : (front ++ '/' :: below).head? = (front ++ ['/']).head? := by
    cases front <;> rfl
  simp only [components, isAbsolute, pieces, String.toList_ofList, hroot, pieces_append_slash,
    head?_pieces_append, List.filterMap_append, filterMap_pieces_nil, List.append_nil,
    List.append_assoc]

theorem components_append_end {front : List Char} (h : front ≠ []) :
    (⟨String.ofList (front ++ ['/'])⟩ : Path).components =
      (⟨String.ofList front⟩ : Path).components := by
  have hroot : (front ++ ['/']).head? = front.head? := List.head?_append_of_ne_nil _ h
  simp only [components, isAbsolute, pieces, String.toList_ofList, hroot, pieces_append_slash,
    head?_pieces_append, List.filterMap_append, filterMap_pieces_nil, List.append_nil]

theorem components_join (folder : Path) {s : String} (h : IsFileName s) :
    (folder.join s).components = folder.components ++ [.name s] := by
  have hpieces : (Run.pieces s.toList).filterMap component? = [.name s] := by
    simp [pieces_of_not_mem h.noSlash, component?_of_isFileName h]
  have hrelative : s.toList.head? ≠ some '/' :=
    fun hhead => h.noSlash (List.mem_of_head? hhead)
  obtain ⟨text⟩ := folder
  rw [join, if_neg hrelative]
  rcases List.eq_nil_or_concat' text.toList with hempty | ⟨front, c, htext⟩
  · -- Without a folder in front the name itself is the first piece.
    have hnotHere : s.toList ≠ ['.'] := fun heq => h.notHere (String.toList_injective heq)
    simp [components, isAbsolute, pieces, hempty, hrelative, pieces_of_not_mem h.noSlash, hnotHere,
      component?_of_isFileName h]
    rfl
  · have hback : String.ofList (front ++ [c]) = text := by rw [← htext, String.ofList_toList]
    by_cases hc : c = '/'
    · have hbelow : text ++ s = String.ofList (front ++ '/' :: s.toList) := by
        rw [← String.toList_inj]
        simp [htext, hc]
      rw [if_pos (by simp [htext, hc]), hbelow, components_append_slash, hpieces, ← hback, hc]
    · have hbelow : text ++ "/" ++ s = String.ofList (front ++ [c] ++ '/' :: s.toList) := by
        rw [← String.toList_inj]
        simp [htext]
      rw [if_neg (by simp [htext, hc]), hbelow, components_append_slash, hpieces,
        components_append_end (by simp), hback]

theorem same_join (folder : Path) {s t : String} (hs : IsFileName s) (ht : IsFileName t) :
    (folder.join s).same (folder.join t) = decide (s = t) := by
  simp [same, components_join folder hs, components_join folder ht]

end Path

end ClassSkeleton.Run
