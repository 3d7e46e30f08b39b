/-!
# Sets of code points given by ranges

A property of characters is tabulated as an array of closed ranges in ascending order, with no
two touching. All tables, that of the capitals included, are those of Unicode 16. Membership is decided by looking for a range that holds the code point.
-/

namespace EventCatalog.Text

/-- A closed range of code points, by its two ends. -/
abbrev Range := Nat × Nat

/-- Whether some range of the table holds the code point `n`. -/
def inRanges (table : Array Range) (n : Nat) : Bool :=
  table.any fun r => r.1 ≤ n && n ≤ r.2

end EventCatalog.Text
