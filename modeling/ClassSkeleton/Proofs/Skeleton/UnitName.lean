import ClassSkeleton.Decl.Build
import ClassSkeleton.Proofs.Run.FileName
import ClassSkeleton.Rules.Standard
import ClassSkeleton.Skeleton.Emit

namespace ClassSkeleton.Text

/-!
# The names of units

The name of a unit is what is left of the name of its class, and its file is called after it. The
file stands directly in the folder of the run unless that name holds a slash or a NUL, or name
and extension together make one of the dotted names.
-/

theorem substituteFrom_nil_sublist (needle : List Char) (skip : Nat) (text : List Char) :
    (substituteFrom needle [] skip text).Sublist text := by
  induction text generalizing skip with
  | nil => exact List.Sublist.refl []
  | cons c rest ih =>
      cases skip with
      | succ skip => exact (ih skip).cons c
      | zero =>
          rw [substituteFrom]
          split
          · exact (ih _).cons c
          · exact (ih 0).cons_cons c

theorem afterLast_sublist (sep : List Char) {text found : List Char} {whole : List Char}
    (htext : text.Sublist whole) (hfound : found.Sublist whole) :
    (afterLast sep found text).Sublist whole := by
  induction text generalizing found with
  | nil => exact hfound
  | cons c rest ih =>
      rw [afterLast]
      apply ih ((List.sublist_cons_self c rest).trans htext)
      split
      · exact (List.drop_sublist _ _).trans htext
      · exact hfound

end ClassSkeleton.Text

namespace ClassSkeleton.Skeleton

/-- A text that can be part of a name in a folder. -/
structure IsClean (s : String) : Prop where
  noSlash : '/' ∉ s.toList
  noNul : '\x00' ∉ s.toList

/-- A name that stands for a file or folder of its own in every folder. -/
structure IsOrdinary (s : String) : Prop extends Run.IsFileName s where
  noNul : '\x00' ∉ s.toList

namespace Rewriting

variable (w : Rewriting) (name : String)

theorem stripNamespace_sublist : (w.stripNamespace name).toList.Sublist name.toList := by
  rw [stripNamespace]
  split
  · exact List.Sublist.refl _
  · rw [String.toList_ofList]
    exact Text.substituteFrom_nil_sublist _ 0 _

/-- Nothing is added to the name of a class. -/
theorem className_sublist : (w.className name).toList.Sublist name.toList := by
  have hstripped := w.stripNamespace_sublist name
  have hlast := Text.afterLast_sublist [':', ':'] hstripped hstripped
  rw [className]
  split
  · exact hstripped
  · rw [String.toList_ofList]
    exact hlast

end Rewriting

/-- A name and an extension that together make a dotted name. -/
def IsDotted (name extension : String) : Prop :=
  (name, extension) ∈ [("", ""), (".", ""), ("", ".")]

theorem isDotted_iff (name extension : String) : IsDotted name extension ↔
    name ++ "." ++ extension = "." ∨ name ++ "." ++ extension = ".." := by
  have hlists (front back : List Char) : front ++ ['.'] ++ back = ['.'] ∨
      front ++ ['.'] ++ back = ['.', '.'] ↔
        front = [] ∧ back = [] ∨ front = ['.'] ∧ back = [] ∨ front = [] ∧ back = ['.'] := by
    rcases front with _ | ⟨c, _ | ⟨d, front⟩⟩
    · simp
    · simp [and_comm]
    · simp
  have hempty : "".toList = [] := rfl
  have hdot : ".".toList = ['.'] := rfl
  have hdots : "..".toList = ['.', '.'] := rfl
  simp only [IsDotted, List.mem_cons, List.not_mem_nil, or_false, Prod.mk.injEq,
    ← String.toList_inj, String.toList_append, hempty, hdot, hdots]
  exact (hlists name.toList extension.toList).symm

/-- The file of a unit stands directly in the folder of the run exactly if the name of the class
and the extension are clean and do not make a dotted name. That name adds nothing to what the
record of the class says. -/
theorem fileName_isOrdinary_iff (rules : Rules.RuleSet) (options : Options)
    (c : Decl.ClassDecl) :
    let u := generate rules options c
    (IsOrdinary u.fileName ↔
        IsClean u.name ∧ IsClean options.extension ∧ ¬ IsDotted u.name options.extension) ∧
      (IsOrdinary u.fileName → ∀ folder : Run.Path,
        (folder.join u.fileName).components = folder.components ++ [.name u.fileName]) ∧
      u.name.toList.Sublist c.name.toList := by
  intro u
  have hfile : u.fileName = u.name ++ "." ++ options.extension := rfl
  have hempty : u.fileName ≠ "" := by
    rw [hfile, ne_eq, ← String.toList_inj]
    simp
  refine ⟨⟨?_, ?_⟩, ?_, Rewriting.className_sublist _ _⟩
  · intro h
    have hslash := h.noSlash
    have hnul := h.noNul
    simp only [hfile, String.toList_append, List.mem_append, not_or] at hslash hnul
    refine ⟨⟨hslash.1.1, hnul.1.1⟩, ⟨hslash.2, hnul.2⟩, ?_⟩
    intro hdotted
    rcases (isDotted_iff _ _).mp hdotted with hhere | hup
    · exact h.notHere hhere
    · exact h.notUp hup
  · rintro ⟨hname, hextension, hdotted⟩
    rw [isDotted_iff, not_or] at hdotted
    have hclean (ch : Char) (hdot : ch ∉ ".".toList) (hfront : ch ∉ u.name.toList)
        (hback : ch ∉ options.extension.toList) : ch ∉ u.fileName.toList := by
      simp only [hfile, String.toList_append, List.mem_append, not_or]
      exact ⟨⟨hfront, hdot⟩, hback⟩
    exact ⟨⟨hempty, hclean '/' (by decide) hname.noSlash hextension.noSlash, hdotted.1,
      hdotted.2⟩, hclean '\x00' (by decide) hname.noNul hextension.noNul⟩
  · intro h folder
    exact Run.Path.components_join folder h.toIsFileName

/-- A record can name its class in such a way that the file stands beside the folder. -/
theorem fileName_leaves_folder :
    let e : Markup.Element := ⟨⟨"compounddef", [("kind", "class"), ("prot", "public")], 0⟩,
      [.element ⟨"compoundname", [], 40⟩ [.text "../Evil"]]⟩
    ∃ c, Decl.readClass e = .ok c ∧
      let u := generate Rules.standard ⟨"", .fieldsFirst, "java"⟩ c
      u.fileName = "../Evil.java" ∧ ¬ IsOrdinary u.fileName ∧
        ((⟨"out"⟩ : Run.Path).join u.fileName).components =
          [.name "out", .up, .name "Evil.java"] := by
  refine ⟨_, rfl, ?_⟩
  intro u
  have hfile : u.fileName = "../Evil.java" := by decide +kernel
  have hslash : '/' ∈ "../Evil.java".toList := by decide
  refine ⟨hfile, ?_, ?_⟩
  · intro h
    exact h.noSlash (hfile ▸ hslash)
  · rw [hfile]
    decide

end ClassSkeleton.Skeleton
