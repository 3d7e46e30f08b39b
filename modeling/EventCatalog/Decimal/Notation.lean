import EventCatalog.Decimal.Shortest

/-!
# Writing binary values in decimal

Two notations for the same shortest digits. The *plain* one is positional whatever the exponent, as
sample values are written. The *message* one always shows a point or an exponent, and turns
scientific from `10 ^ 16` on and below `10 ^ -5`.
-/

namespace EventCatalog.Decimal

/-- The digits with the point after, inside or before them. -/
def Digits.positional (d : Digits) (pointZero : Bool) : List Char :=
  let ds := Nat.toDigits 10 d.digits
  if 0 ≤ d.exponent then
    ds ++ List.replicate d.exponent.toNat '0' ++ (if pointZero then ['.', '0'] else [])
  else
    let places := (-d.exponent).toNat
    let ds := List.replicate (places + 1 - ds.length) '0' ++ ds
    ds.take (ds.length - places) ++ '.' :: ds.drop (ds.length - places)

/-- The digits with the point after the first, and the exponent of that digit with its sign and
two digits at least. -/
def Digits.scientific (d : Digits) : List Char :=
  let ds := Nat.toDigits 10 d.digits
  let e := d.exponent + ds.length - 1
  let mantissa := match ds with
    | [x] => [x]
    | x :: rest => x :: '.' :: rest
    | [] => []
  let ex := Nat.toDigits 10 e.natAbs
  mantissa ++ 'e' :: (if e < 0 then '-' else '+') ::
    (List.replicate (2 - ex.length) '0' ++ ex)

/-- Whether the sign bit of `x` is set. -/
def signBit (x : Float) : Bool := x.toBits >>> 63 == 1

/-- Adds the sign and handles the values that have no digits. -/
def withSign (x : Float) (infinity : String) (body : Binary → List Char) : String :=
  if x.isNaN then "NaN"
  else
    let sign := if signBit x then "-" else ""
    if x.isInf then sign ++ infinity
    else sign ++ String.ofList (body (Binary.ofBits x.toBits))

/-- A sample value: positional for every exponent, without a point when it is whole. -/
def plain (x : Float) : String :=
  withSign x "inf" fun b => (b.shortest .upward).positional false

/-- A number in a message: `1.0`, `0.00001`, `1e+16`. -/
def message (x : Float) : String :=
  withSign x "inf" fun b =>
    let d := b.shortest .toEven
    let e := d.exponent + (Nat.toDigits 10 d.digits).length - 1
    if -5 ≤ e && e < 16 then d.positional true else d.scientific

end EventCatalog.Decimal
