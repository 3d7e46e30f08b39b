import EventCatalog.Decimal.Read
import EventCatalog.Json.Parser
import EventCatalog.Time.Civil

/-!
# Numbers, truth values and times of TOML

Each is a word of characters without blanks; a time may stand one blank behind its date. Numbers are
those of 64 bits. Times are kept as texts in one form.
-/

namespace EventCatalog.Toml

/-! ### Numbers -/

/-- The digits of a number in which single underscores may stand between digits. -/
def ungrouped? (isDigit : Char → Bool) : List Char → Option (List Char)
  | [] => none
  | [c] => if isDigit c then some [c] else none
  | c :: '_' :: rest => if isDigit c then (ungrouped? isDigit rest).map (c :: ·) else none
  | c :: rest => if isDigit c then (ungrouped? isDigit rest).map (c :: ·) else none

/-- The digits of a decimal number, which does not begin with a zero unless it is zero. -/
def decimal? (s : List Char) : Option (List Char) := do
  let ds ← ungrouped? Char.isDigit s
  if ds.length ≠ 1 && ds.head? = some '0' then none else some ds

/-- The value of digits in a base. -/
def radixValue? (base : Nat) (s : List Char) : Option Nat := do
  let valid := fun c => (Json.hexValue? c).any fun v => decide (v < base)
  let ds ← ungrouped? valid s
  ds.foldlM (fun n d => (Json.hexValue? d).map fun v => base * n + v) 0

/-- A whole number. -/
def integer? (s : List Char) : Option Int := do
  let n ← match s with
    | '0' :: 'x' :: rest => (radixValue? 16 rest).map Int.ofNat
    | '0' :: 'o' :: rest => (radixValue? 8 rest).map Int.ofNat
    | '0' :: 'b' :: rest => (radixValue? 2 rest).map Int.ofNat
    | _ =>
      let (negative, rest) := Decimal.takeSign s
      (decimal? rest).map fun ds =>
        if negative then -(Text.digitsValue ds : Int) else Text.digitsValue ds
  if Int64.minValue.toInt ≤ n && n ≤ Int64.maxValue.toInt then some n else none

/-- The exponent of a number from its letter on; nothing at all is zero. -/
def exponent? : List Char → Option Int
  | [] => some 0
  | c :: rest =>
    if c == 'e' || c == 'E' then
      let (negative, rest) := Decimal.takeSign rest
      (ungrouped? Char.isDigit rest).map fun ds =>
        if negative then -(Text.digitsValue ds : Int) else Text.digitsValue ds
    else none

/-- Whether a character can stand in a run of digits. -/
def isGrouped (c : Char) : Bool := c.isDigit || c == '_'

/-- A number with a fraction, an exponent, or both. -/
def real? (s : List Char) : Option Float := do
  let (negative, rest) := Decimal.takeSign s
  match rest, rest.dropWhile isGrouped with
  | ['i', 'n', 'f'], _ => return if negative then -1 / 0 else 1 / 0
  | ['n', 'a', 'n'], _ => return if negative then -(0 / 0) else 0 / 0
  | _, [] => none
  | _, tail =>
    let whole ← decimal? (rest.takeWhile isGrouped)
    let (fraction, tail) ← match tail with
      | '.' :: r => (ungrouped? Char.isDigit (r.takeWhile isGrouped)).map fun ds =>
          (ds, r.dropWhile isGrouped)
      | r => some ([], r)
    let e ← exponent? tail
    let x := Decimal.nearest negative (whole ++ fraction) (e - fraction.length)
    -- a number may be too small to be told from zero, but not too large
    if x.isInf && !negative then none else some x

/-! ### Times -/

/-- A number of exactly so many digits, and the text behind it. -/
def fixed? (width : Nat) (s : List Char) : Option (Nat × List Char) :=
  (Text.natOf? (s.take width)).bind fun n =>
    if (s.take width).length = width then some (n, s.drop width) else none

/-- The text behind a character. -/
def after? (c : Char) : List Char → Option (List Char)
  | d :: rest => if c = d then some rest else none
  | [] => none

/-- A date in its form, and the text behind it. -/
def date? (s : List Char) : Option (List Char × List Char) := do
  let (y, r) ← fixed? 4 s
  let (m, r) ← after? '-' r >>= fixed? 2
  let (d, r) ← after? '-' r >>= fixed? 2
  if 1 ≤ m && m ≤ 12 && 1 ≤ d && d ≤ Time.daysInMonth y m then
    return (Text.padded 4 y ++ '-' :: Text.padded 2 m ++ '-' :: Text.padded 2 d, r)
  none

/-- The written fraction of a second: at most nine digits, without zeros at the end. -/
def fraction (ds : List Char) : List Char :=
  let ds := ((ds.take 9).reverse.dropWhile (· == '0')).reverse
  if ds.isEmpty then [] else '.' :: ds

/-- A time of day in its form, and the text behind it. -/
def timeOfDay? (s : List Char) : Option (List Char × List Char) := do
  let (h, r) ← fixed? 2 s
  let (m, r) ← after? ':' r >>= fixed? 2
  let (sec, r) ← after? ':' r >>= fixed? 2
  if 24 ≤ h || 60 ≤ m || 60 < sec then none
  else
    let text := Text.padded 2 h ++ ':' :: Text.padded 2 m ++ ':' :: Text.padded 2 sec
    match r with
    | '.' :: r =>
      if (r.takeWhile Char.isDigit).isEmpty then none
      else some (text ++ fraction (r.takeWhile Char.isDigit), r.dropWhile Char.isDigit)
    | r => some (text, r)

/-- The distance of a time from UTC in its form; nothing at all is local time. -/
def offset? : List Char → Option (List Char)
  | [] => some []
  | ['Z'] | ['z'] => some ['Z']
  | sign :: rest => do
    if sign != '+' && sign != '-' then none
    else
      let (h, r) ← fixed? 2 rest
      let (m, r) ← after? ':' r >>= fixed? 2
      if !r.isEmpty || 24 ≤ h || 60 ≤ m then none
      else
        let sign := if h = 0 && m = 0 then '+' else sign
        return sign :: Text.padded 2 h ++ ':' :: Text.padded 2 m

/-- A date, a time of day, or both, in its form. -/
def time? (s : List Char) : Option (List Char) :=
  match date? s with
  | some (date, []) => some date
  | some (date, c :: rest) => do
    if c != 'T' && c != 't' && c != ' ' then none
    else
      let (time, rest) ← timeOfDay? rest
      let off ← offset? rest
      return date ++ 'T' :: time ++ off
  | none => (timeOfDay? s).bind fun p => if p.2.isEmpty then some p.1 else none

/-! ### Words -/

/-- Whether a character can stand in a word. -/
def isWordChar (c : Char) : Bool :=
  c.isAlphanum || c == '_' || c == '+' || c == '-' || c == '.' || c == ':'

/-- A word and the text behind it; a date takes the time that follows a single blank. -/
def takeWord (s : List Char) : List Char × List Char :=
  let word := s.takeWhile isWordChar
  match (date? word).map Prod.snd, s.dropWhile isWordChar with
  | some [], ' ' :: rest =>
    if (rest.takeWhile isWordChar).head?.any Char.isDigit then
      (word ++ ' ' :: rest.takeWhile isWordChar, rest.dropWhile isWordChar)
    else (word, ' ' :: rest)
  | _, rest => (word, rest)

/-- The value of a word. -/
def word? (w : List Char) : Option Json :=
  if w = "true".toList then some (.bool true)
  else if w = "false".toList then some (.bool false)
  else match integer? w, real? w, time? w with
    | some n, _, _ => some (.int n)
    | none, some x, _ => some (.real x)
    | none, none, some t => some (.str (String.ofList t))
    | none, none, none => none

end EventCatalog.Toml
