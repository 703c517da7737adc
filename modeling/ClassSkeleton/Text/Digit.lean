namespace ClassSkeleton.Text

/-!
# Digits

The value of a digit in a base up to sixteen, and of a run of digits.
-/

/-- The value of `c` as a digit of `base`; letters count from ten in either case. -/
def digit? (base : Nat) (c : Char) : Option Nat :=
  let value :=
    if '0' ≤ c ∧ c ≤ '9' then some (c.toNat - '0'.toNat)
    else if 'a' ≤ c ∧ c ≤ 'f' then some (c.toNat - 'a'.toNat + 10)
    else if 'A' ≤ c ∧ c ≤ 'F' then some (c.toNat - 'A'.toNat + 10)
    else none
  value.filter (· < base)

/-- The number that a run of digits spells, `none` where a character is no digit of `base`. -/
def number? (base : Nat) (digits : List Char) : Option Nat :=
  digits.foldl (fun n c => do return (← n) * base + (← digit? base c)) (some 0)

end ClassSkeleton.Text
