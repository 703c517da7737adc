namespace ClassSkeleton.Text

/-!
# Positions

A place in a text is given in bytes, and as a line and a column, all counted from zero. Columns
count characters, and only a line feed ends a line.
-/

structure Position where
  byte : Nat
  line : Nat
  column : Nat
  deriving DecidableEq, Repr

namespace Position

def start : Position := ⟨0, 0, 0⟩

/-- The position behind a character. -/
def next (p : Position) (c : Char) : Position :=
  if c = '\n' then ⟨p.byte + c.utf8Size, p.line + 1, 0⟩
  else ⟨p.byte + c.utf8Size, p.line, p.column + 1⟩

/-- The last position from `p` on, at the front of a character or at the end, that does not lie
behind `limit`. -/
def advance (limit : Nat) (p : Position) : List Char → Position
  | [] => p
  | c :: rest => if p.byte + c.utf8Size ≤ limit then advance limit (p.next c) rest else p

/-- The position of a byte. One inside a character counts as the front of it, and one beyond the
text as its end. -/
def ofByte (source : String) (byte : Nat) : Position := advance byte start source.toList

@[simp] theorem advance_nil (limit : Nat) (p : Position) : advance limit p [] = p := rfl

theorem le_advance (limit : Nat) (p : Position) (text : List Char) :
    p.byte ≤ (advance limit p text).byte := by
  induction text generalizing p with
  | nil => exact Nat.le_refl _
  | cons c rest ih =>
    unfold advance
    split
    · refine Nat.le_trans ?_ (ih _)
      unfold next
      split <;> simp
    · exact Nat.le_refl _

end Position

end ClassSkeleton.Text
