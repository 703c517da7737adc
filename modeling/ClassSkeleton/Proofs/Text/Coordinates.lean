import ClassSkeleton.Proofs.Text.Literals
import ClassSkeleton.Text.Cut
import ClassSkeleton.Text.Position
import Mathlib.Data.List.Basic
import Mathlib.Data.List.Induction
import Mathlib.Data.Prod.Lex
import Mathlib.Order.Bounds.Basic

namespace ClassSkeleton.Text

/-!
# Positions as coordinates

The position of a byte is the one behind all the characters that end in front of it. Behind every
further character it lies farther on, in the same line or in the next one, so the line and the
column say which byte is meant. The column counts characters of the line that the place lies on.
-/

theorem length_le_bytes (text : List Char) : text.length ≤ bytes text := by
  induction text with
  | nil => exact Nat.le_refl 0
  | cons c text ih =>
      have hpos := Char.utf8Size_pos c
      rw [List.length_cons, bytes_cons]
      omega

theorem bytes_eq_zero_iff {text : List Char} : bytes text = 0 ↔ text = [] := by
  constructor
  · intro hzero
    have hlength := length_le_bytes text
    apply List.eq_nil_of_length_eq_zero
    omega
  · rintro rfl
    exact bytes_nil

theorem append_inj_of_bytes {front back first second : List Char}
    (h : front ++ back = first ++ second) (hbytes : bytes front = bytes first) :
    front = first ∧ back = second := by
  rcases List.append_eq_append_iff.mp h with ⟨middle, rfl, rfl⟩ | ⟨middle, rfl, rfl⟩
  · rw [bytes_append] at hbytes
    obtain rfl : middle = [] := bytes_eq_zero_iff.mp (by omega)
    exact ⟨(List.append_nil front).symm, rfl⟩
  · rw [bytes_append] at hbytes
    obtain rfl : middle = [] := bytes_eq_zero_iff.mp (by omega)
    exact ⟨List.append_nil first, rfl⟩

theorem bytes_toList (s : String) : bytes s.toList = s.utf8ByteSize := by
  have hbytes (text : List Char) : (String.ofList text).utf8ByteSize = bytes text := by
    induction text with
    | nil => rfl
    | cons c text ih =>
        rw [ofList_cons, String.utf8ByteSize_append, String.utf8ByteSize_singleton, ih, bytes_cons]
  rw [← hbytes, String.ofList_toList]

/-- A byte is at the front of a character, or at the end, if characters fill the bytes before. -/
theorem isValid_iff {source : String} {n : Nat} :
    (⟨n⟩ : String.Pos.Raw).IsValid source ↔
      ∃ front back, source.toList = front ++ back ∧ bytes front = n := by
  rw [String.Pos.Raw.isValid_iff_exists_append]
  constructor
  · rintro ⟨first, second, rfl, hplace⟩
    refine ⟨first.toList, second.toList, String.toList_append, ?_⟩
    rw [bytes_toList]
    exact (congrArg String.Pos.Raw.byteIdx hplace).symm
  · rintro ⟨front, back, hparts, rfl⟩
    refine ⟨String.ofList front, String.ofList back, ?_, ?_⟩
    · rw [← String.ofList_append, ← hparts, String.ofList_toList]
    · have hbytes := bytes_toList (String.ofList front)
      rw [String.toList_ofList] at hbytes
      rw [String.Pos.Raw.ext_iff, hbytes, String.byteIdx_rawEndPos]

/-- A text is cut at the last place that does not lie behind a byte. -/
structure CutAtByte (text front back : List Char) (byte : Nat) : Prop where
  parts : text = front ++ back
  reaches : bytes front ≤ byte
  last : ∀ c ∈ back.head?, byte < bytes front + c.utf8Size

theorem CutAtByte.isPrefix {text front back first second : List Char} {byte : Nat}
    (h : CutAtByte text front back byte) (hparts : text = first ++ second)
    (hreaches : bytes first ≤ byte) : first <+: front := by
  rcases List.append_eq_append_iff.mp (h.parts.symm.trans hparts) with
    ⟨middle, hfirst, hback⟩ | ⟨middle, hfront, -⟩
  · cases middle with
    | nil => exact ⟨[], by rw [List.append_nil, hfirst, List.append_nil]⟩
    | cons c middle =>
        have hlast := h.last c (by rw [hback]; rfl)
        rw [hfirst, bytes_append, bytes_cons] at hreaches
        omega
  · exact ⟨middle, hfront.symm⟩

/-- The line on which a place of a text lies: the lines before it, what stands in it on either side
of the place, and what comes behind it, from the line feed on. -/
structure LineAt (text : List Char) (byte : Nat) (earlier left right later : List Char) : Prop where
  parts : text = earlier ++ left ++ (right ++ later)
  place : bytes (earlier ++ left) = byte
  starts : ∀ c ∈ earlier.getLast?, c = '\n'
  inside : '\n' ∉ left ++ right
  ends : ∀ c ∈ later.head?, c = '\n'

theorem exists_line_start (front : List Char) :
    ∃ earlier left, front = earlier ++ left ∧ (∀ c ∈ earlier.getLast?, c = '\n') ∧
      '\n' ∉ left := by
  induction front using List.reverseRecOn with
  | nil => exact ⟨[], [], rfl, by simp, by simp⟩
  | append_singleton front c ih =>
      obtain ⟨earlier, left, rfl, hstarts, hinside⟩ := ih
      by_cases hc : c = '\n'
      · subst hc
        exact ⟨earlier ++ left ++ ['\n'], [], by simp, by simp, by simp⟩
      · refine ⟨earlier, left ++ [c], by simp, hstarts, ?_⟩
        simpa [hinside] using Ne.symm hc

theorem exists_line_end (back : List Char) :
    ∃ right later, back = right ++ later ∧ '\n' ∉ right ∧ ∀ c ∈ later.head?, c = '\n' := by
  induction back with
  | nil => exact ⟨[], [], rfl, by simp, by simp⟩
  | cons c back ih =>
      by_cases hc : c = '\n'
      · subst hc
        exact ⟨[], '\n' :: back, rfl, by simp, by simp⟩
      · obtain ⟨right, later, rfl, hinside, hends⟩ := ih
        refine ⟨c :: right, later, rfl, ?_, hends⟩
        simpa [hinside] using Ne.symm hc

theorem exists_lineAt (front back : List Char) :
    ∃ earlier left right later, front = earlier ++ left ∧ back = right ++ later ∧
      LineAt (front ++ back) (bytes front) earlier left right later := by
  obtain ⟨earlier, left, rfl, hstarts, hleft⟩ := exists_line_start front
  obtain ⟨right, later, rfl, hright, hends⟩ := exists_line_end back
  exact ⟨earlier, left, right, later, rfl, rfl, rfl, rfl, hstarts, by simp [hleft, hright], hends⟩

theorem length_splitOn (text : List Char) :
    (text.splitOn '\n').length = text.count '\n' + 1 := by
  induction text with
  | nil => rfl
  | cons c text ih =>
      by_cases hc : c = '\n'
      · simp [List.splitOn_cons_eq_if_modifyHead, hc, ih]
      · simp [List.splitOn_cons_eq_if_modifyHead, hc, ih]

namespace LineAt

variable {text earlier left right later : List Char} {byte : Nat}
  (h : LineAt text byte earlier left right later)
include h

/-- Where line feeds divide a text into parts, the line feeds before a line say which part it is. -/
theorem getElem?_divided (divide : List Char → List (List Char))
    (hdivide : ∀ front, ∃ parts, parts.length = front.count '\n' + 1 ∧
      ∀ rest, divide (front ++ '\n' :: rest) = parts ++ divide rest) :
    (divide text)[earlier.count '\n']? = (divide (left ++ right ++ later)).head? := by
  have hparts : text = earlier ++ (left ++ right ++ later) := by
    rw [h.parts]
    simp only [List.append_assoc]
  rw [hparts]
  rcases List.eq_nil_or_concat' earlier with hnil | ⟨init, c, hinit⟩
  · rw [hnil, List.nil_append, List.count_nil, List.head?_eq_getElem?]
  · obtain rfl : c = '\n' := h.starts c (by rw [hinit]; simp)
    obtain ⟨parts, hlength, hrest⟩ := hdivide init
    have hcount : earlier.count '\n' = parts.length := by
      rw [hinit, hlength]
      simp
    rw [hcount, hinit, List.append_assoc, List.singleton_append, hrest,
      List.getElem?_append_right (Nat.le_refl _), Nat.sub_self, List.head?_eq_getElem?]

/-- The line is the one between the line feeds around it. -/
theorem getElem?_splitOn :
    (text.splitOn '\n')[earlier.count '\n']? = some (left ++ right) := by
  have hdivide (front : List Char) : ∃ parts, parts.length = front.count '\n' + 1 ∧
      ∀ rest, (front ++ '\n' :: rest).splitOn '\n' = parts ++ rest.splitOn '\n' :=
    ⟨front.splitOn '\n', length_splitOn front, List.splitOn_append_cons_self front⟩
  rw [h.getElem?_divided (List.splitOn '\n') hdivide]
  cases hlater : later with
  | nil => rw [List.append_nil, List.splitOn_eq_singleton h.inside, List.head?_cons]
  | cons c more =>
      obtain rfl := h.ends c (by rw [hlater]; rfl)
      rw [List.splitOn_append_cons_self_of_not_mem h.inside, List.head?_cons]

end LineAt

namespace Position

/-- The position behind a text. -/
def behind (text : List Char) : Position := text.foldl next start

@[simp] theorem behind_nil : behind [] = start := rfl

@[simp] theorem behind_concat (text : List Char) (c : Char) :
    behind (text ++ [c]) = (behind text).next c := by
  simp [behind]

@[simp] theorem byte_next (p : Position) (c : Char) : (p.next c).byte = p.byte + c.utf8Size := by
  unfold next
  split <;> rfl

theorem byte_foldl_next (p : Position) (text : List Char) :
    (text.foldl next p).byte = p.byte + bytes text := by
  induction text generalizing p with
  | nil => rfl
  | cons c text ih => rw [List.foldl_cons, ih, byte_next, bytes_cons, Nat.add_assoc]

theorem byte_behind (text : List Char) : (behind text).byte = bytes text := by
  rw [behind, byte_foldl_next]
  exact Nat.zero_add _

theorem line_behind (text : List Char) : (behind text).line = text.count '\n' := by
  induction text using List.reverseRecOn with
  | nil => rfl
  | append_singleton text c ih =>
      by_cases hc : c = '\n'
      · simp [next, hc, ih]
      · simp [next, hc, ih]

/-- The column counts what stands in front of the place in its line. -/
theorem column_behind {earlier left : List Char} (hstarts : ∀ c ∈ earlier.getLast?, c = '\n')
    (hinside : '\n' ∉ left) : (behind (earlier ++ left)).column = left.length := by
  induction left using List.reverseRecOn with
  | nil =>
      rw [List.append_nil]
      rcases List.eq_nil_or_concat' earlier with rfl | ⟨init, c, rfl⟩
      · rfl
      · obtain rfl := hstarts c (by simp)
        simp [next]
  | append_singleton left c ih =>
      obtain ⟨hleft, hc⟩ : '\n' ∉ left ∧ c ≠ '\n' := by simpa [eq_comm] using hinside
      rw [← List.append_assoc, behind_concat, next, if_neg hc, ih hleft]
      simp

/-- The position of a place from the rows above and from what stands in front of it in its own. -/
theorem behind_row {above row : List Char} (habove : ∀ c ∈ above.getLast?, c = '\n')
    (hrow : '\n' ∉ row) :
    behind (above ++ row) = ⟨bytes (above ++ row), above.count '\n', row.length⟩ := by
  have hline : (behind (above ++ row)).line = above.count '\n' := by
    rw [line_behind, List.count_append, List.count_eq_zero.mpr hrow, Nat.add_zero]
  rw [← byte_behind, ← hline, ← column_behind habove hrow]

/-- The position of a place is the one behind the characters in front of it. -/
theorem exists_advance {limit : Nat} {p : Position} (hp : p.byte ≤ limit) (text : List Char) :
    ∃ front back, text = front ++ back ∧ advance limit p text = front.foldl next p ∧
      p.byte + bytes front ≤ limit ∧ ∀ c ∈ back.head?, limit < p.byte + bytes front + c.utf8Size := by
  induction text generalizing p with
  | nil => exact ⟨[], [], rfl, rfl, hp, by simp⟩
  | cons c text ih =>
      by_cases hfits : p.byte + c.utf8Size ≤ limit
      · obtain ⟨front, back, rfl, hfold, hreaches, hlast⟩ := ih (p := p.next c) (by simpa using hfits)
        refine ⟨c :: front, back, rfl, ?_, ?_, ?_⟩
        · rw [advance, if_pos hfits, hfold, List.foldl_cons]
        · rw [bytes_cons, ← Nat.add_assoc, ← byte_next]
          exact hreaches
        · rw [bytes_cons, ← Nat.add_assoc, ← byte_next]
          exact hlast
      · refine ⟨[], c :: text, rfl, ?_, hp, ?_⟩
        · rw [advance, if_neg hfits, List.foldl_nil]
        · intro d hd
          obtain rfl : c = d := by simpa using hd
          simpa using hfits

theorem exists_cut_ofByte (source : String) (byte : Nat) :
    ∃ front back, CutAtByte source.toList front back byte ∧ ofByte source byte = behind front := by
  obtain ⟨front, back, hparts, hfold, hreaches, hlast⟩ :=
    exists_advance (p := start) (Nat.zero_le byte) source.toList
  have hstart : start.byte + bytes front = bytes front := Nat.zero_add _
  rw [hstart] at hreaches hlast
  exact ⟨front, back, ⟨hparts, hreaches, hlast⟩, hfold⟩

/-- The byte behind some characters of a source has the position behind them. -/
theorem ofByte_bytes {source : String} {front back : List Char}
    (hparts : source.toList = front ++ back) : ofByte source (bytes front) = behind front := by
  obtain ⟨first, second, hcut, hplace⟩ := exists_cut_ofByte source (bytes front)
  have hbytes : bytes first = bytes front := by
    obtain ⟨middle, rfl⟩ := hcut.isPrefix hparts (Nat.le_refl _)
    have hreaches := hcut.reaches
    rw [bytes_append] at hreaches ⊢
    omega
  rw [hplace, (append_inj_of_bytes (hcut.parts.symm.trans hparts) hbytes).1]

/-- The line of a position has as many line feeds before it as the position says, and as many
characters in front of the place. -/
theorem exists_lineAt_ofByte (source : String) (byte : Nat) :
    ∃ earlier left right later,
      LineAt source.toList (ofByte source byte).byte earlier left right later ∧
        (ofByte source byte).line = earlier.count '\n' ∧
        (ofByte source byte).column = left.length := by
  obtain ⟨front, back, hcut, hplace⟩ := exists_cut_ofByte source byte
  obtain ⟨earlier, left, right, later, rfl, rfl, hat⟩ := exists_lineAt front back
  have hinside : '\n' ∉ left := fun hmem => hat.inside (List.mem_append_left right hmem)
  refine ⟨earlier, left, right, later, ?_, ?_, ?_⟩
  · rw [hplace, byte_behind, hcut.parts]
    exact hat
  · rw [hplace, behind_row hat.starts hinside]
  · rw [hplace, behind_row hat.starts hinside]

/-- The line and the column, compared by the line first. -/
def coordinates (p : Position) : Nat ×ₗ Nat := toLex (p.line, p.column)

theorem coordinates_lt_next (p : Position) (c : Char) : p.coordinates < (p.next c).coordinates := by
  rw [coordinates, coordinates, Prod.Lex.toLex_lt_toLex]
  unfold next
  split
  · exact Or.inl (Nat.lt_succ_self _)
  · exact Or.inr ⟨rfl, Nat.lt_succ_self _⟩

theorem coordinates_le_foldl (p : Position) (text : List Char) :
    p.coordinates ≤ (text.foldl next p).coordinates := by
  induction text generalizing p with
  | nil => exact le_refl _
  | cons c text ih => exact (coordinates_lt_next p c).le.trans (ih (p.next c))

theorem coordinates_lt_behind_append (front : List Char) {more : List Char} (hmore : more ≠ []) :
    (behind front).coordinates < (behind (front ++ more)).coordinates := by
  obtain ⟨c, more, rfl⟩ := List.exists_cons_of_ne_nil hmore
  rw [behind, behind, List.foldl_append, List.foldl_cons]
  exact (coordinates_lt_next _ c).trans_le (coordinates_le_foldl _ more)

theorem strictMonoOn_coordinates (source : String) :
    StrictMonoOn (fun n => (ofByte source n).coordinates)
      {n | (⟨n⟩ : String.Pos.Raw).IsValid source} := by
  intro m hm n hn hlt
  obtain ⟨front, back, hfront, rfl⟩ := isValid_iff.mp hm
  obtain ⟨first, second, hfirst, rfl⟩ := isValid_iff.mp hn
  simp only [ofByte_bytes hfront, ofByte_bytes hfirst]
  rcases List.append_eq_append_iff.mp (hfront.symm.trans hfirst) with
    ⟨middle, rfl, -⟩ | ⟨middle, rfl, -⟩
  · apply coordinates_lt_behind_append
    rintro rfl
    rw [List.append_nil] at hlt
    exact Nat.lt_irrefl _ hlt
  · rw [bytes_append] at hlt
    omega

theorem isGreatest_byte_ofByte (source : String) (byte : Nat) :
    IsGreatest {n | (⟨n⟩ : String.Pos.Raw).IsValid source ∧ n ≤ min byte source.utf8ByteSize}
      (ofByte source byte).byte := by
  obtain ⟨front, back, hcut, hplace⟩ := exists_cut_ofByte source byte
  rw [hplace, byte_behind]
  have hsize (first second : List Char) (hparts : source.toList = first ++ second) :
      bytes first ≤ source.utf8ByteSize := by
    rw [← bytes_toList, hparts, bytes_append]
    omega
  constructor
  · exact ⟨isValid_iff.mpr ⟨front, back, hcut.parts, rfl⟩,
      Nat.le_min.mpr ⟨hcut.reaches, hsize front back hcut.parts⟩⟩
  · rintro n ⟨hn, hle⟩
    obtain ⟨first, second, hparts, rfl⟩ := isValid_iff.mp hn
    obtain ⟨middle, rfl⟩ := hcut.isPrefix hparts (hle.trans (Nat.min_le_left _ _))
    rw [bytes_append]
    omega

/-- Positions are coordinates of a source. That of a byte stands for the last front of a character
that is not behind the byte or the end, and a place of that kind for itself. From one such place to a
later one the line grows, or the column in the same line; so the line and the column belong to one
position alone, and the column stays inside the line. -/
theorem ofByte_faithful (source : String) (byte : Nat) :
    IsGreatest {n | (⟨n⟩ : String.Pos.Raw).IsValid source ∧ n ≤ min byte source.utf8ByteSize}
        (ofByte source byte).byte ∧
      ofByte source (ofByte source byte).byte = ofByte source byte ∧
      StrictMonoOn (fun n => toLex ((ofByte source n).line, (ofByte source n).column))
        {n | (⟨n⟩ : String.Pos.Raw).IsValid source} ∧
      (∀ other, (ofByte source byte).line = (ofByte source other).line ∧
          (ofByte source byte).column = (ofByte source other).column ↔
        ofByte source byte = ofByte source other) ∧
      ∃ row, (source.toList.splitOn '\n')[(ofByte source byte).line]? = some row ∧
        (ofByte source byte).column ≤ row.length := by
  have hsame (b : Nat) : ofByte source (ofByte source b).byte = ofByte source b := by
    obtain ⟨first, second, hother, hfirst⟩ := exists_cut_ofByte source b
    rw [hfirst, byte_behind, ofByte_bytes hother.parts]
  have hmono := strictMonoOn_coordinates source
  refine ⟨isGreatest_byte_ofByte source byte, hsame byte, hmono, fun other => ?_, ?_⟩
  · constructor
    · rintro ⟨hline, hcolumn⟩
      have hbyte : (ofByte source byte).byte = (ofByte source other).byte := by
        apply hmono.injOn (isGreatest_byte_ofByte source byte).1.1
          (isGreatest_byte_ofByte source other).1.1
        simp only [hsame, coordinates]
        exact congrArg toLex (Prod.ext hline hcolumn)
      rw [← hsame other, ← hbyte, hsame byte]
    · rintro heq
      rw [← heq]
      exact ⟨rfl, rfl⟩
  · obtain ⟨earlier, left, right, later, hat, hline, hcolumn⟩ := exists_lineAt_ofByte source byte
    refine ⟨left ++ right, ?_, ?_⟩
    · rw [hline, hat.getElem?_splitOn]
    · rw [hcolumn, List.length_append]
      omega

end Position

end ClassSkeleton.Text
