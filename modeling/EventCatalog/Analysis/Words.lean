import EventCatalog.Analysis.Token
import EventCatalog.Text.Alphanumeric
import EventCatalog.Text.LowerCase

/-!
# Words of free text

Free text is cut into its maximal runs of letters and digits, each lower-cased character by
character. A run of 40 bytes or more is left out, but keeps its position.
-/

namespace EventCatalog.Analysis

open Text (isAlphanumeric lowerEach)

/-- Runs of this many bytes are left out. -/
def wordLimit : Nat := 40

namespace Words

/-- The maximal runs of letters and digits, each with the byte at which it starts. `run` is the run
so far, last character first. -/
def runs (offset : Nat) (run : List Char) : List Char → List (Nat × List Char)
  | [] => if run.isEmpty then [] else [(offset - byteLength run, run.reverse)]
  | c :: rest =>
    if isAlphanumeric c then runs (offset + c.utf8Size) (c :: run) rest
    else
      (if run.isEmpty then [] else [(offset - byteLength run, run.reverse)]) ++
        runs (offset + c.utf8Size) [] rest

/-- The tokens of runs numbered from `position` on. -/
def number (position : Nat) : List (Nat × List Char) → List Token
  | [] => []
  | (start, run) :: rest =>
    (if byteLength run < wordLimit then
      [⟨lowerEach run, start, start + byteLength run, position⟩]
    else []) ++ number (position + 1) rest

end Words

/-- The words of a text. -/
def words (s : List Char) : List Token := Words.number 0 (Words.runs 0 [] s)

end EventCatalog.Analysis
