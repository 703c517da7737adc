import ClassSkeleton.Pattern.Match

namespace ClassSkeleton.Pattern

/-!
# Replacing every match

Matches are taken from left to right without overlap. An empty match is not taken directly
behind the match before it. Assertions see the text as it was.
-/

/-- What is known of the match that begins at a place of the text. -/
abbrev Finder := List Char → List Char → Option Match

/-- Replaces the matches from a place on. The next `skip` characters belong to a match that has
been replaced, and `adjoins` says that the last match ends here or behind them. -/
def replaceFrom (find : Finder) (expand : Match → List Char) (before : List Char) (skip : Nat)
    (adjoins : Bool) : List Char → List Char
  | [] =>
    match find before [] with
    | none => []
    | some m => if adjoins then [] else expand m
  | c :: rest =>
    match skip with
    | skip + 1 => replaceFrom find expand (c :: before) skip adjoins rest
    | 0 =>
      match find before (c :: rest) with
      | none => c :: replaceFrom find expand (c :: before) 0 false rest
      | some m =>
        match m.length with
        | 0 =>
          (if adjoins then [] else expand m) ++
            c :: replaceFrom find expand (c :: before) 0 false rest
        | n + 1 => expand m ++ replaceFrom find expand (c :: before) n true rest

def replaceMatches (find : Finder) (expand : Match → List Char) (text : List Char) : List Char :=
  replaceFrom find expand [] 0 false text

end ClassSkeleton.Pattern
