import ClassSkeleton.Diagnostic
import ClassSkeleton.Proofs.Text.Coordinates

namespace ClassSkeleton

/-!
# Excerpts

A diagnostic that has a place is shown with the line of the source on which the place lies, and
with a mark in the row below. Lines are found by counting line feeds, and they are shown without
their ends, so the mark is below the character of the place unless that belongs to the end.
-/

namespace Text

/-- What is shown of a line: a carriage return right before the line feed belongs to its end. -/
def shownLine (line later : List Char) : List Char :=
  if later ≠ [] ∧ line.getLast? = some '\r' then line.dropLast else line

/-- Whether a character is part of the end of a line: the line feed, or a carriage return right
before it. -/
def IsLineEnd (c : Char) (rest : List Char) : Prop :=
  c = '\n' ∨ c = '\r' ∧ rest.head? = some '\n'

theorem shownLine_subset (line later : List Char) : shownLine line later ⊆ line := by
  unfold shownLine
  split
  · exact List.dropLast_subset line
  · exact List.Subset.refl line

/-- What stands in front of a character that is not part of the end of its line is shown, and so is
the character. -/
theorem exists_shownLine (left : List Char) {more later : List Char} {c : Char}
    (hends : ∀ c ∈ later.head?, c = '\n') (hc : ¬ IsLineEnd c (more ++ later)) :
    ∃ rest, shownLine (left ++ c :: more) later = left ++ c :: rest := by
  unfold shownLine
  split
  · next hreturn =>
      obtain ⟨hlater, hlast⟩ := hreturn
      rcases List.eq_nil_or_concat' more with rfl | ⟨init, d, rfl⟩
      · obtain ⟨d, behind, rfl⟩ := List.exists_cons_of_ne_nil hlater
        obtain rfl := hends d rfl
        obtain rfl : c = '\r' := by simpa using hlast
        exact absurd (Or.inr ⟨rfl, rfl⟩) hc
      · refine ⟨init, ?_⟩
        rw [← List.cons_append, ← List.append_assoc, List.dropLast_concat]
  · exact ⟨more, rfl⟩

theorem reverse_dropReturn (line : List Char) :
    (dropReturn line.reverse).reverse =
      if line.getLast? = some '\r' then line.dropLast else line := by
  rcases List.eq_nil_or_concat' line with rfl | ⟨init, c, rfl⟩
  · rfl
  · by_cases hc : c = '\r'
    · simp [dropReturn, hc]
    · have hkept : dropReturn (c :: init.reverse) = c :: init.reverse := by
        unfold dropReturn
        split
        · next heq => exact absurd (List.cons.inj heq).1 hc
        · rfl
      simp [hkept, hc]

theorem linesFrom_of_notMem {line : List Char} (h : '\n' ∉ line) (before : List Char) :
    linesFrom before line =
      if before.reverse ++ line = [] then [] else [before.reverse ++ line] := by
  induction line generalizing before with
  | nil => simp [linesFrom]
  | cons c line ih =>
      obtain ⟨hc, hline⟩ := not_or.mp (mt List.mem_cons.mpr h)
      rw [linesFrom, if_neg (Ne.symm hc), ih hline]
      simp

theorem exists_linesFrom_append (before front : List Char) :
    ∃ found, found.length = front.count '\n' + 1 ∧
      ∀ rest, linesFrom before (front ++ '\n' :: rest) = found ++ lines rest := by
  induction front generalizing before with
  | nil => exact ⟨[(dropReturn before).reverse], rfl, fun rest => by simp [linesFrom, lines]⟩
  | cons c front ih =>
      by_cases hc : c = '\n'
      · obtain ⟨found, hlength, hrest⟩ := ih []
        refine ⟨(dropReturn before).reverse :: found, ?_, fun rest => ?_⟩
        · rw [hc, List.length_cons, hlength, List.count_cons_self]
        · rw [List.cons_append, linesFrom, if_pos hc, hrest, List.cons_append]
      · obtain ⟨found, hlength, hrest⟩ := ih (c :: before)
        refine ⟨found, ?_, fun rest => ?_⟩
        · rw [hlength, List.count_cons_of_ne hc]
        · rw [List.cons_append, linesFrom, if_neg hc, hrest]

namespace LineAt

variable {text earlier left right later : List Char} {byte : Nat}
  (h : LineAt text byte earlier left right later)
include h

/-- The line of a place is among the lines, unless the place is behind them all. -/
theorem getElem?_lines :
    (lines text)[earlier.count '\n']? =
      if left ++ right ++ later = [] then none else some (shownLine (left ++ right) later) := by
  rw [h.getElem?_divided lines fun front => exists_linesFrom_append [] front]
  cases hlater : later with
  | nil =>
      rw [List.append_nil, lines, linesFrom_of_notMem h.inside]
      split <;> simp_all [shownLine]
  | cons c more =>
      obtain rfl := h.ends c (by rw [hlater]; rfl)
      rw [lines, linesFrom_append_cons h.inside, List.append_nil, reverse_dropReturn]
      simp [shownLine]

theorem behind_lines_iff :
    left ++ right ++ later = [] ↔ byte = bytes text ∧ ∀ c ∈ text.getLast?, c = '\n' := by
  constructor
  · intro hnone
    obtain ⟨hline, hlater⟩ := List.append_eq_nil_iff.mp hnone
    obtain ⟨hleft, hright⟩ := List.append_eq_nil_iff.mp hline
    have htext : text = earlier := by simpa [hleft, hright, hlater] using h.parts
    refine ⟨?_, htext ▸ h.starts⟩
    rw [← h.place, hleft, List.append_nil, htext]
  · rintro ⟨hend, hlast⟩
    have hbehind : right ++ later = [] := by
      have hlength := length_le_bytes (right ++ later)
      rw [← h.place, h.parts, bytes_append (earlier ++ left)] at hend
      apply List.eq_nil_of_length_eq_zero
      omega
    rw [List.append_assoc, hbehind, List.append_nil]
    rcases List.eq_nil_or_concat' left with hnil | ⟨init, c, hinit⟩
    · exact hnil
    · -- The last character of the line would end the text, and so it would be a line feed.
      have hc : c = '\n' := hlast c (by rw [h.parts, hbehind, hinit]; simp)
      exact absurd (by simp [hinit, hc]) h.inside

end LineAt

end Text

namespace Diagnostic

open Text

/-- What stands in front of the line in an excerpt: its number, and a bar. -/
def margin (number : Nat) : List Char :=
  (alignRight (max 2 (toString number).length) (toString number)).toList ++ [' ', '|', ' ']

/-- What stands in front of the mark in an excerpt: room for the number, and a bar. -/
def blankMargin (number : Nat) : List Char :=
  List.replicate (max 2 (toString number).length) ' ' ++ [' ', '|', ' ']

def barRow (number : Nat) : List Char :=
  List.replicate (max 2 (toString number).length) ' ' ++ [' ', '|', '\n']

def sourceRow (number : Nat) (line : List Char) : List Char := margin number ++ line ++ ['\n']

def markRow (number column : Nat) : List Char :=
  blankMargin number ++ List.replicate column ' ' ++ ['^', '\n']

theorem length_margin (number : Nat) : (margin number).length = (blankMargin number).length := by
  simp only [margin, blankMargin, alignRight, spaces, String.toList_append, String.toList_ofList,
    List.length_append, List.length_replicate, String.length_toList]
  omega

theorem toList_excerptOf (line : List Char) (p : Position) :
    (excerptOf line p).toList =
      barRow (p.line + 1) ++ sourceRow (p.line + 1) line ++ markRow (p.line + 1) p.column := by
  simp [excerptOf, barRow, sourceRow, markRow, margin, blankMargin, spaces]

theorem notMem_margin (number : Nat) : '\n' ∉ margin number := by
  have hdigits : '\n' ∉ (toString number).toList := by
    intro hmem
    rw [Nat.toString_eq_repr, Nat.toList_repr] at hmem
    exact absurd (Nat.isDigit_of_mem_toDigits (by decide) (by decide) hmem) (by decide)
  simp only [margin, alignRight, spaces, String.toList_append, String.toList_ofList,
    List.mem_append, List.mem_replicate, not_or]
  exact ⟨⟨fun hblank => absurd hblank.2 (by decide), hdigits⟩, by decide⟩

theorem notMem_blankMargin (number column : Nat) :
    '\n' ∉ blankMargin number ++ List.replicate column ' ' := by
  simp [blankMargin]

/-- Whether the character behind `shown` has a mark below it: in the next row, in its column. -/
def IsMarked (shown : List Char) (c : Char) (rendered : List Char) : Prop :=
  ∃ between below, rendered = shown ++ c :: between ++ '^' :: below ∧
    (Position.behind (shown ++ c :: between)).line = (Position.behind shown).line + 1 ∧
    (Position.behind (shown ++ c :: between)).column = (Position.behind shown).column

section Marks

variable {above left rest : List Char} {c : Char} {number column : Nat}

/-- A mark is below the character that has as many characters in front of it in its line. -/
theorem isMarked_rows (habove : ∀ c ∈ above.getLast?, c = '\n')
    (hinside : '\n' ∉ left ++ c :: rest) (hcolumn : left.length = column) (below : List Char) :
    IsMarked (above ++ (margin number ++ left)) c
      (above ++ sourceRow number (left ++ c :: rest) ++ markRow number column ++ below) := by
  let between := rest ++ '\n' :: (blankMargin number ++ List.replicate column ' ')
  let earlier := above ++ (margin number ++ (left ++ c :: rest)) ++ ['\n']
  have hsplit : above ++ (margin number ++ left) ++ c :: between =
      earlier ++ (blankMargin number ++ List.replicate column ' ') := by
    simp [earlier, between]
  have hmargin : '\n' ∉ margin number ++ left := fun hmem =>
    (List.mem_append.mp hmem).elim (notMem_margin number) fun hleft =>
      hinside (List.mem_append_left _ hleft)
  have hearlier : ∀ c ∈ earlier.getLast?, c = '\n' := by
    have hlast : earlier.getLast? = some '\n' := List.getLast?_concat
    simp [hlast]
  have hcount : earlier.count '\n' = above.count '\n' + 1 := by
    have hrow : (margin number ++ (left ++ c :: rest)).count '\n' = 0 := by
      rw [List.count_eq_zero, List.mem_append, not_or]
      exact ⟨notMem_margin number, hinside⟩
    simp only [earlier]
    rw [List.count_append, List.count_append, hrow]
    rfl
  have hlength : (blankMargin number ++ List.replicate column ' ').length =
      (margin number ++ left).length := by
    rw [List.length_append, List.length_append, length_margin, List.length_replicate, hcolumn]
  refine ⟨between, '\n' :: below, ?_, ?_, ?_⟩
  · simp [between, sourceRow, markRow]
  · rw [hsplit, Position.behind_row hearlier (notMem_blankMargin number column),
      Position.behind_row habove hmargin, hcount]
  · rw [hsplit, Position.behind_row hearlier (notMem_blankMargin number column),
      Position.behind_row habove hmargin, hlength]

/-- The character of a place is the one that the mark is below, unless it ends the line. -/
theorem isMarked_of_lineAt {text earlier right later front behind : List Char} {byte : Nat}
    (h : LineAt text byte earlier left right later) (habove : ∀ c ∈ above.getLast?, c = '\n')
    (hcolumn : left.length = column) (htext : text = front ++ c :: behind)
    (hplace : bytes front = byte) (hc : ¬ IsLineEnd c behind) (below : List Char) :
    IsMarked (above ++ (margin number ++ left)) c
      (above ++ sourceRow number (shownLine (left ++ right) later) ++ markRow number column ++
        below) := by
  have hcut : earlier ++ left ++ (right ++ later) = front ++ c :: behind :=
    h.parts.symm.trans htext
  obtain ⟨-, hbehind⟩ := append_inj_of_bytes hcut (h.place.trans hplace.symm)
  cases right with
  | nil =>
      rw [List.nil_append] at hbehind
      exact absurd (Or.inl (h.ends c (by rw [hbehind]; rfl))) hc
  | cons d more =>
      obtain ⟨rfl, rfl⟩ := List.cons.inj hbehind
      obtain ⟨tail, htail⟩ := exists_shownLine left h.ends hc
      have hinside : '\n' ∉ left ++ d :: tail := fun hmem =>
        h.inside (shownLine_subset _ later (htail ▸ hmem))
      rw [htail]
      exact isMarked_rows habove hinside hcolumn below

end Marks

/-- A diagnostic shows the line of its place, unless the place is behind all lines: the line stands
in a row with its number, without what ends it, and in the next row there is a mark. If the character
of the place is not part of the end of the line, then it is the one that the mark is below. -/
theorem render_marks_place (d : Diagnostic) (source filename : String) (byte : Nat) :
    let p := Position.ofByte source byte
    let placed : Diagnostic := { d with position := some p }
    let above := (placed.location filename ++ placed.headline).toList
    let below := placed.helpText.toList
    let rendered := (placed.render source filename).toList
    (rendered = above ++ below ↔
        p.byte = source.utf8ByteSize ∧ ∀ c ∈ source.toList.getLast?, c = '\n') ∧
      (rendered ≠ above ++ below → ∃ earlier left right later,
        LineAt source.toList p.byte earlier left right later ∧ p.line = earlier.count '\n' ∧
        rendered = above ++ barRow (p.line + 1) ++
          sourceRow (p.line + 1) (shownLine (left ++ right) later) ++
          markRow (p.line + 1) p.column ++ below ∧
        ∀ front c rest, source.toList = front ++ c :: rest → bytes front = p.byte →
          ¬ IsLineEnd c rest →
            IsMarked (above ++ barRow (p.line + 1) ++ (margin (p.line + 1) ++ left)) c rendered) := by
  intro p placed above below rendered
  obtain ⟨earlier, left, right, later, hat, hline, hcolumn⟩ :=
    Position.exists_lineAt_ofByte source byte
  have hrendered : rendered = above ++ (placed.excerpt source).toList ++ below := by
    simp only [rendered, above, below, render, String.toList_append]
  have hexcerpt : placed.excerpt source =
      if left ++ right ++ later = [] then "" else excerptOf (shownLine (left ++ right) later) p := by
    rw [excerpt]
    simp only [placed, p, hline, hat.getElem?_lines]
    split <;> simp_all
  have hend := hat.behind_lines_iff
  rw [bytes_toList] at hend
  by_cases hnone : left ++ right ++ later = []
  · have hplain : rendered = above ++ below := by
      rw [hrendered, hexcerpt, if_pos hnone]
      simp
    exact ⟨iff_of_true hplain (hend.mp hnone), fun hne => absurd hplain hne⟩
  · have hrows : rendered = above ++ barRow (p.line + 1) ++
        sourceRow (p.line + 1) (shownLine (left ++ right) later) ++
        markRow (p.line + 1) p.column ++ below := by
      rw [hrendered, hexcerpt, if_neg hnone, toList_excerptOf]
      simp only [List.append_assoc]
    have hne : rendered ≠ above ++ below := by
      intro heq
      have hlength := congrArg List.length (hrows.symm.trans heq)
      simp only [List.length_append, markRow, List.length_cons] at hlength
      omega
    refine ⟨iff_of_false hne (mt hend.mpr hnone), fun _ => ⟨earlier, left, right, later, hat, hline,
      hrows, ?_⟩⟩
    intro front c rest htext hplace hc
    rw [hrows]
    exact isMarked_of_lineAt hat (by simp [barRow]) hcolumn.symm htext hplace hc below

end Diagnostic

end ClassSkeleton
