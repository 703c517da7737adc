namespace ClassSkeleton.Text

/-!
# Substitution

Every occurrence of a literal text is replaced in one pass from left to right. What has been
put in is not looked at again.
-/

/-- Replaces `needle` by `filler` from a place on. The next `skip` characters belong to an
occurrence that has been replaced. -/
def substituteFrom (needle filler : List Char) (skip : Nat) : List Char → List Char
  | [] => []
  | c :: rest =>
    match skip with
    | skip + 1 => substituteFrom needle filler skip rest
    | 0 =>
      if needle.isPrefixOf (c :: rest) then
        filler ++ substituteFrom needle filler (needle.length - 1) rest
      else c :: substituteFrom needle filler 0 rest

def substitute (needle filler text : List Char) : List Char :=
  substituteFrom needle filler 0 text

/-- What stands behind the last occurrence of `sep`, or `found` where there is none. -/
def afterLast (sep found : List Char) : List Char → List Char
  | [] => found
  | c :: rest =>
    afterLast sep (if sep.isPrefixOf (c :: rest) then (c :: rest).drop sep.length else found) rest

/-- The last of the parts that `sep` divides a text into. -/
def lastPart (sep text : List Char) : List Char := afterLast sep text text

end ClassSkeleton.Text
