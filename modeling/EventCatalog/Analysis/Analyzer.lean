import EventCatalog.Analysis.Grams
import EventCatalog.Analysis.Words

/-!
# Analyzers

The ways in which an indexed text is cut into tokens.
-/

namespace EventCatalog

/-- How a text is analyzed. -/
inductive Analyzer where
  /-- The whole text is one token. -/
  | keyword
  /-- Words of free text. -/
  | words
  /-- Grams of identifiers. -/
  | grams
deriving DecidableEq, Repr, Inhabited

namespace Analyzer

open Analysis

/-- The tokens of a text. -/
def tokens : Analyzer → List Char → List Token
  | keyword, s => [⟨s, 0, byteLength s, 0⟩]
  | words, s => Analysis.words s
  | grams, s => Analysis.grams s

end Analyzer

end EventCatalog
