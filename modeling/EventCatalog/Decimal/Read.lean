import EventCatalog.Text.Numeral

/-!
# Reading decimals

Decimals with a fraction and an exponent, read as the nearest binary value. What exceeds all finite
values is infinite.
-/

namespace EventCatalog.Decimal

/-- The binary value nearest to `digits * 10 ^ exponent`. Far outside the range of binary values
nothing has to be computed. -/
def nearest (negative : Bool) (digits : List Char) (exponent : Int) : Float :=
  let ds := digits.dropWhile (· == '0')
  let magnitude := (ds.length : Int) + exponent
  let x :=
    if ds.isEmpty || magnitude < -400 then 0
    else if magnitude > 400 then 1 / 0
    else Float.ofScientific (Text.digitsValue ds) (exponent < 0) exponent.natAbs
  if negative then -x else x

/-- A sign, if there is one, and what follows it. -/
def takeSign : List Char → Bool × List Char
  | '-' :: rest => (true, rest)
  | '+' :: rest => (false, rest)
  | s => (false, s)

/-- The exponent behind the digits of a decimal; nothing at all is zero. -/
def exponent? : List Char → Option Int
  | [] => some 0
  | c :: rest =>
    if c == 'e' || c == 'E' then
      let (negative, ds) := takeSign rest
      (Text.natOf? ds).map fun n => if negative then -(n : Int) else n
    else none

/-- Reads a decimal that has a digit before or behind its point. -/
def digits? (negative : Bool) (s : List Char) : Option Float :=
  let whole := s.takeWhile Char.isDigit
  let (fraction, rest) := match s.dropWhile Char.isDigit with
    | '.' :: r => (r.takeWhile Char.isDigit, r.dropWhile Char.isDigit)
    | r => ([], r)
  if whole.isEmpty && fraction.isEmpty then none
  else (exponent? rest).map fun e => nearest negative (whole ++ fraction) (e - fraction.length)

/-- Reads a decimal, or the name of a value that has no digits, in either case. -/
def read? (s : String) : Option Float :=
  let (negative, rest) := takeSign s.toList
  let name := String.ofList (rest.map Char.toLower)
  let signed := fun (x : Float) => some (if negative then -x else x)
  if name == "inf" || name == "infinity" then signed (1 / 0)
  else if name == "nan" then signed (0 / 0)
  else digits? negative rest

end EventCatalog.Decimal
