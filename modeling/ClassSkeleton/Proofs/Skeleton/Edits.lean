import ClassSkeleton.Proofs.Text.Literals
import ClassSkeleton.Skeleton.Buffer
import Mathlib.Data.List.Forall2

namespace ClassSkeleton.Skeleton.Buffer

/-!
# Edits of a buffer

A buffer gives back the texts that were handed to it, one after the other, with a line feed for
each line that was ended. Whether a text was pushed as it stands or as a block can only be seen
inside the buffer, where a block ends a line at each of its line feeds.
-/

/-- One use of a buffer. -/
inductive Edit where
  | push (text : String)
  | pushBlock (text : String)
  | newline
  deriving DecidableEq, Repr

def edit (b : Buffer) : Edit → Buffer
  | .push text => b.push text
  | .pushBlock text => b.pushBlock text
  | .newline => b.newline

/-- What becomes of a new buffer. -/
def edited (edits : List Edit) : Buffer := edits.foldl edit empty

namespace Edit

/-- What an edit adds to the whole text. -/
def text : Edit → String
  | .push text | .pushBlock text => text
  | .newline => "\n"

/-- Edits that differ at most in whether their text is pushed as a block. -/
inductive Interchanges : Edit → Edit → Prop
  | same (e : Edit) : Interchanges e e
  | asBlock (text : String) : Interchanges (.push text) (.pushBlock text)
  | asText (text : String) : Interchanges (.pushBlock text) (.push text)

theorem Interchanges.text_eq {e other : Edit} (h : Interchanges e other) :
    other.text = e.text := by
  cases h <;> rfl

end Edit

theorem finish_edit (b : Buffer) (e : Edit) : (b.edit e).finish = b.finish ++ e.text := by
  cases e with
  | push text => exact finish_push b text
  | pushBlock text => exact finish_pushBlock b text
  | newline => exact finish_newline b

theorem finish_foldl_edit (b : Buffer) (edits : List Edit) :
    (edits.foldl edit b).finish = b.finish ++ String.join (edits.map Edit.text) := by
  induction edits generalizing b with
  | nil => simp
  | cons e edits ih =>
      rw [List.foldl_cons, ih, finish_edit, List.map_cons, String.join_cons, String.append_assoc]

/-- A new buffer gives back the concatenation of what is handed to it, and it gives back the same
whichever of the texts are pushed as blocks. -/
theorem finish_edited (edits : List Edit) :
    (edited edits).finish = String.join (edits.map Edit.text) ∧
      ∀ others, List.Forall₂ Edit.Interchanges edits others →
        (edited others).finish = (edited edits).finish := by
  have hfinish (edits : List Edit) :
      (edited edits).finish = String.join (edits.map Edit.text) := by
    rw [edited, finish_foldl_edit, finish_empty, String.empty_append]
  refine ⟨hfinish edits, ?_⟩
  intro others hothers
  have htexts : others.map Edit.text = edits.map Edit.text := by
    induction hothers with
    | nil => rfl
    | cons h _ ih => rw [List.map_cons, List.map_cons, h.text_eq, ih]
  rw [hfinish, hfinish, htexts]

/-- A comment that is one block or one text, an empty text, and a text with a blank line in it. -/
theorem finish_edited_comment :
    let edits : List Edit := [.pushBlock "/**\n * A\n */\n", .push "", .push "class", .newline,
      .push "a;\n\nb;", .newline, .pushBlock "\x7d"]
    let others : List Edit := [.push "/**\n * A\n */\n", .pushBlock "", .push "class", .newline,
      .pushBlock "a;\n\nb;", .newline, .push "\x7d"]
    List.Forall₂ Edit.Interchanges edits others ∧
      (edited others).finish = "/**\n * A\n */\nclass\na;\n\nb;\n\x7d" := by
  intro edits others
  have hothers : List.Forall₂ Edit.Interchanges edits others :=
    .cons (.asText _) <| .cons (.asBlock _) <| .cons (.same _) <| .cons (.same _) <|
      .cons (.asBlock _) <| .cons (.same _) <| .cons (.asText _) .nil
  obtain ⟨hjoin, hsame⟩ := finish_edited edits
  refine ⟨hothers, ?_⟩
  rw [hsame others hothers, hjoin]
  decide +kernel

/-!
## What a buffer keeps

Inside a buffer a line feed that is pushed is a letter of its line, and one in a block is not.
-/

/-- What is done to a buffer at one place: a letter is added, or the line is ended. -/
inductive Stroke where
  | letter (c : Char)
  | lineEnd
  deriving DecidableEq, Repr

def Stroke.inBlock (c : Char) : Stroke := if c = '\n' then .lineEnd else .letter c

def Edit.strokes : Edit → List Stroke
  | .push text => text.toList.map .letter
  | .pushBlock text => text.toList.map .inBlock
  | .newline => [.lineEnd]

def stroke (b : Buffer) : Stroke → Buffer
  | .letter c => b.push (String.singleton c)
  | .lineEnd => b.newline

theorem push_eq_foldl_stroke (b : Buffer) (text : List Char) :
    b.push (String.ofList text) = (text.map Stroke.letter).foldl stroke b := by
  induction text generalizing b with
  | nil => simp [push]
  | cons c text ih =>
      rw [List.map_cons, List.foldl_cons, ← ih, Text.ofList_cons]
      simp only [stroke, push, String.append_assoc]

theorem map_inBlock_eq_map_letter_iff {text : List Char} :
    text.map Stroke.inBlock = text.map Stroke.letter ↔ '\n' ∉ text := by
  rw [List.map_inj_left]
  constructor
  · intro h hfeed
    exact absurd (h '\n' hfeed) (by decide)
  · intro hfeed c hc
    exact if_neg (ne_of_mem_of_not_mem hc hfeed)

theorem pushChars_eq_foldl_stroke (b : Buffer) (line text : List Char) :
    b.pushChars line text =
      (line.reverse.map Stroke.letter ++ text.map Stroke.inBlock).foldl stroke b := by
  induction text generalizing b line with
  | nil => rw [pushChars, push_eq_foldl_stroke, List.map_nil, List.append_nil]
  | cons c text ih =>
      rw [List.map_cons, pushChars, Stroke.inBlock]
      split
      · rw [ih, push_eq_foldl_stroke, List.foldl_append, List.foldl_append, List.foldl_cons]
        rfl
      · rw [ih, List.reverse_cons, List.map_append, List.append_assoc]
        rfl

theorem edit_eq_foldl_stroke (b : Buffer) (e : Edit) : b.edit e = e.strokes.foldl stroke b := by
  cases e with
  | push text =>
      have hpush := push_eq_foldl_stroke b text.toList
      rwa [String.ofList_toList] at hpush
  | pushBlock text => exact pushChars_eq_foldl_stroke b [] text.toList
  | newline => rfl

theorem edited_eq_foldl_stroke (edits : List Edit) :
    edited edits = (edits.flatMap Edit.strokes).foldl stroke empty := by
  rw [edited, List.foldl_flatMap]
  simp only [← edit_eq_foldl_stroke]

/-- The strokes that a buffer is made of, read off its lines. -/
def strokes (b : Buffer) : List Stroke :=
  (b.lines.reverse.flatMap fun line => line.toList.dropLast.map .letter ++ [.lineEnd]) ++
    b.current.toList.map .letter

theorem strokes_stroke (b : Buffer) (s : Stroke) : (b.stroke s).strokes = b.strokes ++ [s] := by
  cases s with
  | letter c => simp [stroke, strokes, push]
  | lineEnd => simp [stroke, strokes, newline]

theorem strokes_foldl_stroke (b : Buffer) (more : List Stroke) :
    (more.foldl stroke b).strokes = b.strokes ++ more := by
  induction more generalizing b with
  | nil => exact (List.append_nil _).symm
  | cons s more ih =>
      rw [List.foldl_cons, ih, strokes_stroke, List.append_assoc, List.singleton_append]

/-- Two buffers are the same if the same strokes were made, and only then. -/
theorem edited_eq_edited_iff {edits others : List Edit} :
    edited others = edited edits ↔
      others.flatMap Edit.strokes = edits.flatMap Edit.strokes := by
  rw [edited_eq_foldl_stroke, edited_eq_foldl_stroke]
  constructor
  · intro h
    have hstrokes := congrArg strokes h
    rwa [strokes_foldl_stroke, strokes_foldl_stroke, List.append_cancel_left_eq] at hstrokes
  · intro h
    rw [h]

namespace Edit.Interchanges

variable {e other : Edit} (h : Interchanges e other)
include h

theorem length_strokes : other.strokes.length = e.strokes.length := by
  cases h <;> simp [strokes]

theorem strokes_eq_iff : other.strokes = e.strokes ↔ other = e ∨ '\n' ∉ e.text.toList := by
  cases h with
  | same => simp
  | asBlock text =>
      rw [or_iff_right Edit.noConfusion]
      exact map_inBlock_eq_map_letter_iff
  | asText text =>
      rw [or_iff_right Edit.noConfusion, eq_comm]
      exact map_inBlock_eq_map_letter_iff

end Edit.Interchanges

/-- Texts and blocks in each other's place leave the same buffer if none of those that change their
place has a line feed, and only then. -/
theorem edited_eq_edited_iff_of_interchanges {edits others : List Edit}
    (h : List.Forall₂ Edit.Interchanges edits others) :
    edited others = edited edits ↔
      List.Forall₂ (fun e other => other = e ∨ '\n' ∉ e.text.toList) edits others := by
  rw [edited_eq_edited_iff]
  induction h with
  | nil => simp
  | cons h _ ih =>
      rw [List.flatMap_cons, List.flatMap_cons, List.forall₂_cons, ← h.strokes_eq_iff, ← ih]
      constructor
      · intro happend
        exact List.append_inj happend h.length_strokes
      · rintro ⟨hhead, htail⟩
        rw [hhead, htail]

end ClassSkeleton.Skeleton.Buffer
