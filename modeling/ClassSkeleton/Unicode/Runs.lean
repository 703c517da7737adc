import ClassSkeleton.Text.Digit

namespace ClassSkeleton.Unicode

/-!
# Runs of code points

A property of characters is constant on long runs of code points. A table lists where each
run begins, and bisection finds the run that holds a character.
-/

structure Runs (α : Type) where
  starts : Array (Nat × α)

namespace Runs

/-- Narrows `lo ≤ i < hi` to the last run that begins at or before `n`. -/
def bisect {α : Type} (starts : Array (Nat × α)) (n : Nat) :
    Nat → Nat → Nat → Option α → Option α
  | 0, _, _, found => found
  | fuel + 1, lo, hi, found =>
    if lo < hi then
      let mid := (lo + hi) / 2
      match starts[mid]? with
      | none => found
      | some (start, value) =>
        if start ≤ n then bisect starts n fuel (mid + 1) hi (some value)
        else bisect starts n fuel lo mid found
    else found

def value? {α : Type} (runs : Runs α) (n : Nat) : Option α :=
  bisect runs.starts n runs.starts.size 0 runs.starts.size none

/-- Reads a table of words, a label of `width` letters and a hexadecimal start in each. -/
def ofLabels {α : Type} (width : Nat) (label? : String → Option α) (table : List String) :
    Runs α where
  starts := ((table.flatMap (·.splitOn " ")).filterMap fun word => do
    let letters := word.toList
    let value ← label? (String.ofList (letters.take width))
    return ((← Text.number? 16 (letters.drop width)), value)).toArray

/-- Reads a table of code points `a` and ranges `a-b`, ascending and apart from one another. -/
def ofRanges (table : List String) : Runs Bool where
  starts := ((table.flatMap (·.splitOn " ")).flatMap fun word =>
    match (word.splitOn "-").filterMap fun bound => Text.number? 16 bound.toList with
    | [only] => [(only, true), (only + 1, false)]
    | [first, last] => [(first, true), (last + 1, false)]
    | _ => []).toArray

end Runs

end ClassSkeleton.Unicode
