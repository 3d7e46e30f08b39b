/-!
# Numerals

Whole numbers in decimal: how they are read from a text that holds nothing else, and how they are
written with a least number of digits. Only the ASCII digits count as digits.
-/

namespace EventCatalog.Text

/-- The value of a run of decimal digits, the most significant first. -/
def digitsValue (ds : List Char) : Nat :=
  ds.foldl (fun n c => 10 * n + (c.toNat - '0'.toNat)) 0

/-- Reads a text of one digit or more. -/
def natOf? (s : List Char) : Option Nat :=
  if s.isEmpty || !s.all Char.isDigit then none else some (digitsValue s)

/-- Reads a natural number, which a plus sign may precede. -/
def unsignedOf? (s : String) : Option Nat :=
  match s.toList with
  | '+' :: ds => natOf? ds
  | ds => natOf? ds

/-- Reads an integer, which either sign may precede. -/
def signedOf? (s : String) : Option Int :=
  match s.toList with
  | '-' :: ds => (natOf? ds).map fun n => -(n : Int)
  | '+' :: ds => (natOf? ds).map Int.ofNat
  | ds => (natOf? ds).map Int.ofNat

/-- Reads an integer that fits into 64 bits with a sign. -/
def int64Of? (s : String) : Option Int64 := do
  let n ← signedOf? s
  if Int64.minValue.toInt ≤ n && n ≤ Int64.maxValue.toInt then some (Int64.ofInt n) else none

/-- Reads a natural number below the bound. -/
def natBelow? (bound : Nat) (s : String) : Option Nat := do
  let n ← unsignedOf? s
  if n < bound then some n else none

/-- The decimal digits of `n`, with zeros in front up to the given width. -/
def padded (width n : Nat) : List Char :=
  let ds := Nat.toDigits 10 n
  List.replicate (width - ds.length) '0' ++ ds

end EventCatalog.Text
