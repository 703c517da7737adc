namespace ClassSkeleton.Json

/-!
# Numbers in messages

A message shows a number that stands where something else was expected. Integers show their
digits. Other numbers are rounded to floating point and show the fewest digits that read back,
positional up to sixteen places and never without a decimal point there.
-/

/-- A positive or zero number in floating point, as `mantissa * 2 ^ exponent`. -/
structure Binary where
  mantissa : Nat
  exponent : Int
  deriving DecidableEq, Repr

namespace Binary

def ofFloat (x : Float) : Binary :=
  let bits : Nat := x.toBits.toNat
  let fraction : Nat := bits % Nat.pow 2 52
  let biased : Nat := bits / Nat.pow 2 52 % Nat.pow 2 11
  if biased = 0 then ⟨fraction, -1074⟩ else ⟨Nat.pow 2 52 + fraction, (biased : Int) - 1075⟩

/-- The numbers that round to `b` reach from `(4m - 2)` or `(4m - 1)` quarters below to
`(4m + 2)` quarters above; the lower gap is narrower at a power of two. -/
def quarters (b : Binary) : Nat × Nat :=
  let m := 4 * b.mantissa
  let narrow := b.mantissa = Nat.pow 2 52 ∧ b.exponent ≠ -1074
  (if narrow then m - 1 else m - 2, m + 2)

/-- The scale factors `p / q` with `b = m * p / (4 q)` on the grid of step `10 ^ e`. -/
def scale (b : Binary) (e : Int) : Nat × Nat :=
  let two := b.exponent - 2
  (Nat.pow 2 two.toNat * Nat.pow 10 (-e).toNat, Nat.pow 2 (-two).toNat * Nat.pow 10 e.toNat)

/-- The multiple of `10 ^ e` nearest to `b` among those that read back as `b`. -/
def onGrid? (b : Binary) (e : Int) : Option Nat :=
  let (p, q) := b.scale e
  let (lo, hi) := b.quarters
  let value := 4 * b.mantissa * p
  let ends := b.mantissa % 2 = 0
  let readsBack (n : Nat) : Bool :=
    if ends then lo * p ≤ n * q && n * q ≤ hi * p else lo * p < n * q && n * q < hi * p
  let below := value / q
  let above := below + 1
  match readsBack below, readsBack above with
  | true, true =>
    let down := value - below * q
    let up := above * q - value
    some (if down < up ∨ (down = up ∧ below % 2 = 0) then below else above)
  | true, false => some below
  | false, true => some above
  | false, false => none

/-- The first grid, from coarse to fine, that holds a number reading back as `b`. -/
def search (b : Binary) : Nat → Int → Nat × Int
  | 0, e => (0, e)
  | fuel + 1, e =>
    match b.onGrid? e with
    | some 0 | none => search b fuel (e - 1)
    | some n => (n, e)

/-- The fewest digits that read back as `b`, and the power of ten of the last of them. -/
def shortest (b : Binary) : Nat × Int :=
  if b.mantissa = 0 then (0, 0) else search b 700 330

end Binary

/-- Takes zeros off the end of a number. -/
def stripZeros : Nat → Nat × Int → Nat × Int
  | 0, d => d
  | fuel + 1, (n, e) => if n ≠ 0 ∧ n % 10 = 0 then stripZeros fuel (n / 10, e + 1) else (n, e)

def zeros (n : Nat) : List Char := List.replicate n '0'

/-- The text of `n * 10 ^ e`. -/
def decimalText (n : Nat) (e : Int) : List Char :=
  let (n, e) := stripZeros 400 (n, e)
  let digits := (toString n).toList
  let point := (digits.length : Int) + e
  if n = 0 then ['0', '.', '0']
  else if 0 ≤ e ∧ point ≤ 16 then digits ++ zeros e.toNat ++ ['.', '0']
  else if 0 < point ∧ point ≤ 16 then
    digits.take point.toNat ++ '.' :: digits.drop point.toNat
  else if -5 < point ∧ point ≤ 0 then '0' :: '.' :: zeros (-point).toNat ++ digits
  else
    let exponent := (toString (point - 1)).toList
    match digits with
    | [d] => d :: 'e' :: exponent
    | d :: rest => d :: '.' :: rest ++ 'e' :: exponent
    | [] => []

def floatText (negative : Bool) (x : Float) : List Char :=
  let (n, e) := (Binary.ofFloat x).shortest
  (if negative then ['-'] else []) ++ decimalText n e

/-- The power of ten nearest to `10 ^ n`, up to the largest there is. -/
def powerOfTen (n : Nat) : Float := Float.ofScientific 1 false n

/-- `significand * 10 ^ exponent` by one product or quotient, and more quotients below the
smallest power; `none` beyond the largest number. -/
def scaled? : Nat → Float → Int → Option Float
  | 0, x, _ => some x
  | fuel + 1, x, exponent =>
    if exponent.natAbs ≤ 308 then
      if 0 ≤ exponent then
        let y := x * powerOfTen exponent.toNat
        if y.isInf then none else some y
      else some (x / powerOfTen (-exponent).toNat)
    else if x == 0 then some x
    else if 0 ≤ exponent then none
    else scaled? fuel (x / powerOfTen 308) (exponent + 308)

/-- How a number shows in a message. -/
inductive Number where
  | integer (negative : Bool) (n : Nat)
  | float (negative : Bool) (x : Float)

namespace Number

def text : Number → List Char
  | integer negative n => (if negative then ['-'] else []) ++ (toString n).toList
  | float negative x => floatText negative x

/-- A number written with digits alone: an integer if 64 bits hold it, without `-0`. -/
def ofInteger (negative : Bool) (n : Nat) : Number :=
  if negative ∧ (n = 0 ∨ Nat.pow 2 63 < n) then float true (Float.ofNat n) else integer negative n

end Number

end ClassSkeleton.Json
