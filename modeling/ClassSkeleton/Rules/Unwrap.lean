import ClassSkeleton.Pattern.Replace
import ClassSkeleton.Text.Cut
import ClassSkeleton.Text.Trim

namespace ClassSkeleton.Rules

/-!
# Unwrapping

A wrapper is matched up to its opening bracket. The match and the bracket that closes it are
dropped, and what they enclose stays in place, trimmed. Where no bracket closes it, the match
alone is dropped.
-/

/-- A text without its wrappers, and the openers that no bracket closed, in order. -/
structure Unwrapped where
  text : List Char
  unclosed : List (List Char)

/-- Unwraps from a place on. What has been passed is not matched again; what an opener enclosed
is. -/
def unwrapFrom (find : Pattern.Finder) (before after : List Char) : Unwrapped :=
  match after with
  | [] => ⟨before.reverse, []⟩
  | c :: rest =>
    match find before (c :: rest) with
    | none => unwrapFrom find (c :: before) rest
    | some m =>
      match m.length with
      | 0 => unwrapFrom find (c :: before) rest
      | n + 1 =>
        match _closed : Text.cutAtClose? 0 (rest.drop n) with
        | some (inside, tail) => unwrapFrom find before (Text.trim inside ++ tail)
        | none =>
          let result := unwrapFrom find before (rest.drop n)
          { result with unclosed := (c :: rest.take n) :: result.unclosed }
termination_by after.length
decreasing_by
  · simp
  · simp
  · have h₁ := congrArg List.length (Text.cutAtClose?_eq_append _closed)
    have h₂ := Text.length_trim_le inside
    simp only [List.length_drop, List.length_append, List.length_cons] at h₁
    simp only [List.length_append, List.length_cons]
    omega
  · simp only [List.length_drop, List.length_cons]
    omega

def unwrapAll (find : Pattern.Finder) (text : List Char) : Unwrapped := unwrapFrom find [] text

end ClassSkeleton.Rules
