namespace ClassSkeleton.Text

/-!
# Lines

A line feed ends a line, and a carriage return directly before it belongs to the end. A text
that ends in a line feed has no line behind it.
-/

/-- A line read backwards, without a carriage return at its end. -/
def dropReturn : List Char → List Char
  | '\r' :: line => line
  | line => line

/-- The lines of a text behind the characters of `line`, the latest first. -/
def linesFrom (line : List Char) : List Char → List (List Char)
  | [] => if line.isEmpty then [] else [line.reverse]
  | c :: rest =>
    if c = '\n' then (dropReturn line).reverse :: linesFrom [] rest else linesFrom (c :: line) rest

def lines (text : List Char) : List (List Char) := linesFrom [] text

@[simp] theorem lines_nil : lines [] = [] := rfl

theorem not_mem_of_mem_linesFrom {line found text : List Char} (hline : '\n' ∉ line)
    (h : found ∈ linesFrom line text) : '\n' ∉ found := by
  induction text generalizing line with
  | nil =>
    unfold linesFrom at h
    split at h
    · simp at h
    · obtain rfl := List.mem_singleton.mp h
      simpa using hline
  | cons c rest ih =>
    unfold linesFrom at h
    split at h
    · rcases List.mem_cons.mp h with rfl | h
      · intro hmem
        have hmem := List.mem_reverse.mp hmem
        unfold dropReturn at hmem
        split at hmem
        · exact hline (List.mem_cons_of_mem _ hmem)
        · exact hline hmem
      · exact ih (by simp) h
    · next hc =>
      refine ih ?_ h
      intro hmem
      rcases List.mem_cons.mp hmem with rfl | hmem
      · exact hc rfl
      · exact hline hmem

/-- No line holds a line feed. -/
theorem not_mem_of_mem_lines {found text : List Char} (h : found ∈ lines text) :
    '\n' ∉ found :=
  not_mem_of_mem_linesFrom (by simp) h

theorem linesFrom_append_cons {line : List Char} (hline : '\n' ∉ line) (before rest : List Char) :
    linesFrom before (line ++ '\n' :: rest) =
      (dropReturn (line.reverse ++ before)).reverse :: lines rest := by
  induction line generalizing before with
  | nil => simp [linesFrom, lines]
  | cons c line ih =>
    have hne : c ≠ '\n' := fun heq => hline (by simp [heq])
    rw [List.cons_append, linesFrom, if_neg hne, ih fun h => hline (List.mem_cons_of_mem c h)]
    simp

/-- A line feed ends the line in front of it, which is kept if no carriage return ends it. -/
theorem lines_append_cons {line : List Char} (hline : '\n' ∉ line)
    (hreturn : line.getLast? ≠ some '\r') (rest : List Char) :
    lines (line ++ '\n' :: rest) = line :: lines rest := by
  have hkept : dropReturn line.reverse = line.reverse := by
    rw [← List.head?_reverse] at hreturn
    unfold dropReturn
    split
    · next heq => simp [heq] at hreturn
    · rfl
  rw [lines, linesFrom_append_cons hline, List.append_nil, hkept, List.reverse_reverse]

end ClassSkeleton.Text
