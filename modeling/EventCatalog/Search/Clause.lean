import EventCatalog.Search.Schema

/-!
# Clauses

A clause is one condition on the documents of an index, on one field or on a pair of fields that
hold the same text.
-/

namespace EventCatalog

/-- How the values of a clause combine. -/
inductive Combine where
  | all
  | any
deriving DecidableEq, Repr, Inhabited

/-- The fields that a text pattern is matched against: the keyword, and, where there is one, the
analyzed field with the same text, which serves patterns without wildcards. -/
structure PatternTarget where
  keyword : String
  analyzed : Option String
deriving DecidableEq, Repr, Inhabited

namespace PatternTarget

/-- The identifier of the element. -/
def element : PatternTarget := ⟨Field.elementKeyword, some Field.element⟩

/-- The identifier of the part of the element. -/
def subElement : PatternTarget := ⟨Field.subElementKeyword, some Field.subElement⟩

/-- The summary. -/
def summary : PatternTarget := ⟨Field.summaryKeyword, some Field.summary⟩

/-- A field without an analyzed companion. -/
def ofKeyword (field : String) : PatternTarget := ⟨field, none⟩

end PatternTarget

/-- A condition on documents. -/
inductive Clause where
  /-- The field has the value. -/
  | exact (field value : String)
  /-- The field has all or any of the values. -/
  | exactSet (field : String) (values : List String) (combine : Combine)
  /-- The text matches the glob, or contains the pattern. -/
  | pattern (target : PatternTarget) (pattern : String)
  /-- The path is the pattern, or lies in the subtree that it names. -/
  | path (field pattern : String)
  /-- The number lies in the interval; an end that is not given is open. -/
  | range (field : String) (least greatest : Option Int)
  /-- The number is one of the codes. -/
  | codes (field : String) (codes : List Int)
deriving DecidableEq, Repr, Inhabited

end EventCatalog
