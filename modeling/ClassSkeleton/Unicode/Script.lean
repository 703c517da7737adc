import ClassSkeleton.Unicode.Runs
import ClassSkeleton.Unicode.ScriptTable

namespace ClassSkeleton.Unicode

/-!
# Scripts

A script is known by a four-letter code and by one or more longer spellings.
-/

structure Script where
  code : String
  deriving DecidableEq, Repr

namespace Script

def spellings : List (List String) := (scriptNameTable.flatMap (·.splitOn " ")).map (·.splitOn "=")

/-- The script that a spelling stands for; the code is the first of its spellings. -/
def named? (spelling : String) : Option Script :=
  ((spellings.find? (·.contains spelling)).bind (·.head?)).map Script.mk

def runs : Runs Script := .ofLabels 4 (some ⟨·⟩) scriptTable

end Script

def script? (c : Char) : Option Script := Script.runs.value? c.toNat

end ClassSkeleton.Unicode
