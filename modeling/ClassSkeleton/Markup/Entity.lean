import ClassSkeleton.Markup.Fault
import ClassSkeleton.Text.Cut

namespace ClassSkeleton.Markup

/-!
# Entities

An ampersand begins an entity, which the next semicolon ends. No ampersand may come between.
Five entities have names, and `#` begins the number of a character.
-/

/-- Reads digits from the left until one is wrong or the number leaves 32 bits. -/
def referenceNumber (base : Nat) : Nat → List Char → Except Cause Nat
  | n, [] => .ok n
  | n, c :: rest =>
    match Text.digit? base c with
    | none => .error .invalidDigit
    | some d =>
      let m := n * base + d
      if 2 ^ 32 ≤ m then .error .referenceOverflow else referenceNumber base m rest

def referenceValue (base : Nat) (digits : List Char) : Except Cause Nat :=
  match digits with
  | [] => .error .emptyReference
  | '+' :: _ | '-' :: _ => .error .signedReference
  | _ => referenceNumber base 0 digits

/-- The character of a reference, from behind its `#`; `x` announces hexadecimal digits. -/
def reference (name : List Char) : Except Cause Char := do
  let n ← match name with
    | 'x' :: digits => referenceValue 16 digits
    | _ => referenceValue 10 name
  if n = 0 then .error .nullReference
  else if n.isValidChar then .ok (Char.ofNat n)
  else .error (.invalidCodePoint n)

/-- The character of an entity whose name stands at `start`. -/
def entity (start : Nat) (name : List Char) : Except Cause Char :=
  match name with
  | '#' :: number => reference number
  | ['l', 't'] => .ok '<'
  | ['g', 't'] => .ok '>'
  | ['a', 'm', 'p'] => .ok '&'
  | ['a', 'p', 'o', 's'] => .ok '\''
  | ['q', 'u', 'o', 't'] => .ok '"'
  | _ => .error (.unknownEntity start (start + Text.bytes name) (String.ofList name))

/-- Whether a semicolon closes an entity before another ampersand comes, and the name that it
closes. -/
def entityName? : List Char → Option (List Char)
  | [] => none
  | c :: rest =>
    if c = ';' then some []
    else if c = '&' then none
    else (entityName? rest).map (c :: ·)

/-- Replaces the entities from a place on. The next `skip` characters belong to an entity that
has been replaced. -/
def unescapeFrom (place skip : Nat) : List Char → Except Cause (List Char)
  | [] => .ok []
  | c :: rest =>
    match skip with
    | skip + 1 => unescapeFrom (place + c.utf8Size) skip rest
    | 0 =>
      if c = '&' then
        match entityName? rest with
        | none => .error (.unclosedEntity place (place + Text.bytes (c :: rest)))
        | some name => do
          let d ← entity (place + 1) name
          return d :: (← unescapeFrom (place + 1) (name.length + 1) rest)
      else return c :: (← unescapeFrom (place + c.utf8Size) 0 rest)

def unescape (text : List Char) : Except Cause (List Char) := unescapeFrom 0 0 text

end ClassSkeleton.Markup
