namespace ClassSkeleton.Skeleton

/-!
# Line buffers

Code is collected piece by piece. Complete lines are kept apart from the line that is still
being written.
-/

/-- The complete lines, the latest first, each with its line feed, and the current line. -/
structure Buffer where
  lines : List String
  current : String

namespace Buffer

def empty : Buffer := ⟨[], ""⟩

/-- Adds text to the current line. -/
def push (b : Buffer) (text : String) : Buffer := { b with current := b.current ++ text }

/-- Ends the current line. -/
def newline (b : Buffer) : Buffer := ⟨(b.current ++ "\n") :: b.lines, ""⟩

/-- Adds characters behind those of `line`, the latest first, and ends a line at each line
feed. -/
def pushChars (b : Buffer) (line : List Char) : List Char → Buffer
  | [] => b.push (String.ofList line.reverse)
  | c :: rest =>
    if c = '\n' then pushChars (b.push (String.ofList line.reverse)).newline [] rest
    else pushChars b (c :: line) rest

/-- Adds text that may have several lines. -/
def pushBlock (b : Buffer) (text : String) : Buffer := b.pushChars [] text.toList

/-- The whole text. -/
def finish (b : Buffer) : String := String.join b.lines.reverse ++ b.current

@[simp] theorem finish_empty : empty.finish = "" := rfl

@[simp] theorem finish_push (b : Buffer) (text : String) :
    (b.push text).finish = b.finish ++ text := by
  simp [finish, push, String.append_assoc]

@[simp] theorem finish_newline (b : Buffer) : b.newline.finish = b.finish ++ "\n" := by
  simp [finish, newline, String.append_assoc]

theorem finish_pushChars (b : Buffer) (line text : List Char) :
    (b.pushChars line text).finish = b.finish ++ String.ofList (line.reverse ++ text) := by
  induction text generalizing b line with
  | nil => simp [pushChars]
  | cons c rest ih =>
    by_cases hc : c = '\n'
    · have hfeed : "\n" = String.ofList ['\n'] := rfl
      rw [pushChars, if_pos hc, ih, finish_newline, finish_push, hc, hfeed]
      simp only [List.reverse_nil, List.nil_append, String.append_assoc, ← String.ofList_append,
        List.append_assoc, List.cons_append]
    · simp [pushChars, hc, ih]

@[simp] theorem finish_pushBlock (b : Buffer) (text : String) :
    (b.pushBlock text).finish = b.finish ++ text := by
  simp [pushBlock, finish_pushChars]

end Buffer

end ClassSkeleton.Skeleton
