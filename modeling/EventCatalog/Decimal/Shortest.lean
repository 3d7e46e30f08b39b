/-!
# The shortest decimal of a binary value

A finite binary64 value stands for all reals that round to it. The decimal chosen for it is, among
those with the fewest digits that lie in that interval, the nearest to the value. The search runs
over grids of 1, 2, … digits and tests the two neighbours of the value on each, in exact arithmetic
on naturals.
-/

namespace EventCatalog.Decimal

/-- The finite non-negative value `m * 2 ^ q`. -/
structure Binary where
  m : Nat
  q : Int
  /-- The gap to the value below is half the gap to the value above. -/
  narrowBelow : Bool

/-- The value that the low 63 bits of a finite binary64 stand for. -/
def Binary.ofBits (b : UInt64) : Binary :=
  let e := ((b >>> 52) &&& 0x7FF).toNat
  let f := (b &&& 0xFFFFFFFFFFFFF).toNat
  if e == 0 then ⟨f, -1074, false⟩ else ⟨0x10000000000000 + f, (e : Int) - 1075, f == 0 && e > 1⟩

/-- The decimal `digits * 10 ^ exponent`. -/
structure Digits where
  digits : Nat
  exponent : Int
deriving Repr, DecidableEq

/-- Which of two equally near candidates is taken. -/
inductive Tie where
  | toEven
  | upward
deriving Repr, DecidableEq

/-- Compares `a * 10 ^ i` with `n * 2 ^ j`, exactly. -/
def cmpScaled (a : Nat) (i : Int) (n : Nat) (j : Int) : Ordering :=
  compare (a * Nat.pow 10 i.toNat * Nat.pow 2 (-j).toNat)
    (n * Nat.pow 2 j.toNat * Nat.pow 10 (-i).toNat)

/-- Whether the decimal lies among the reals that round to `x`: to nearest, ties to even. -/
def Binary.readsBack (x : Binary) (d : Digits) : Bool :=
  let lo := if x.narrowBelow then 4 * x.m - 1 else 4 * x.m - 2
  let hi := 4 * x.m + 2
  let ends := x.m % 2 == 0
  let below := cmpScaled d.digits d.exponent lo (x.q - 2)
  let above := cmpScaled d.digits d.exponent hi (x.q - 2)
  (below == .gt || (ends && below == .eq)) && (above == .lt || (ends && above == .eq))

/-- The least `k` from `start` on, within `steps`, with `x < 10 ^ k`. -/
def Binary.scaleFrom (x : Binary) (start : Int) : Nat → Int
  | 0 => start
  | steps + 1 =>
    if cmpScaled 1 start x.m x.q == .gt then start else x.scaleFrom (start + 1) steps

/-- The least `k` with `x < 10 ^ k`, for a positive `x`. The estimate from the binary logarithm is
never too large and at most a few steps too small. -/
def Binary.scale (x : Binary) : Int :=
  let log2 : Int := (Nat.log2 x.m : Int) + x.q
  x.scaleFrom (Int.fdiv (log2 * 30102) 100000 - 2) 8

/-- The value's floor on the grid of multiples of `10 ^ e`. -/
def Binary.floorOnGrid (x : Binary) (e : Int) : Nat :=
  (x.m * Nat.pow 2 x.q.toNat * Nat.pow 10 (-e).toNat) /
    (Nat.pow 2 (-x.q).toNat * Nat.pow 10 e.toNat)

/-- The candidate on the grid of multiples of `10 ^ e`, if one of the value's two neighbours there
reads back. -/
def Binary.onGrid (tie : Tie) (x : Binary) (e : Int) : Option Digits :=
  let lower := x.floorOnGrid e
  let down : Digits := ⟨lower, e⟩
  let up : Digits := ⟨lower + 1, e⟩
  match x.readsBack down && lower != 0, x.readsBack up with
  | false, false => none
  | true, false => some down
  | false, true => some up
  | true, true =>
    -- the value against the middle of the two neighbours
    match cmpScaled (2 * lower + 1) e (2 * x.m) x.q with
    | .gt => some down
    | .lt => some up
    | .eq => match tie with
      | .upward => some up
      | .toEven => if lower % 2 == 0 then some down else some up

/-- Moves trailing zeros of the digits into the exponent. -/
def Digits.strip (d : Digits) : Nat → Digits
  | 0 => d
  | fuel + 1 =>
    if d.digits != 0 && d.digits % 10 == 0 then
      Digits.strip ⟨d.digits / 10, d.exponent + 1⟩ fuel
    else d

/-- The exact decimal of a binary value. -/
def Binary.exact (x : Binary) : Digits :=
  if 0 ≤ x.q then ⟨x.m * Nat.pow 2 x.q.toNat, 0⟩
  else ⟨x.m * Nat.pow 5 (-x.q).toNat, x.q⟩

/-- The shortest decimal that reads back, the nearest of those. -/
def Binary.shortest (tie : Tie) (x : Binary) : Digits :=
  if x.m == 0 then ⟨0, 0⟩ else
    let k := x.scale
    let found := (List.range 17).findSome? fun n => x.onGrid tie (k - (n + 1 : Nat))
    (found.getD x.exact).strip 800

end EventCatalog.Decimal
