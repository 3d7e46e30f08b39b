import EventCatalog.Json.Value

/-!
# Reading JSON

`Json.read` turns a text into a value and says whether the text was JSON to its end. It does not
give up at the first fault: what stood before the fault is in the value, and `Json.malformed` marks
the place. A reader of records can thus report the first of its own complaints that precedes the
fault. Containers may be nested `maxDepth` deep.

Every function consumes text; a count that starts above the length of the text bounds the
recursion and is never used up.
-/

namespace EventCatalog.Json

/-- How deep containers may be nested. -/
def maxDepth : Nat := 127

/-- The blanks of JSON. -/
def isBlank (c : Char) : Bool := c == ' ' || c == '\n' || c == '\t' || c == '\r'

/-- The text from its first non-blank character on. -/
def skipBlanks (s : List Char) : List Char := s.dropWhile isBlank

/-! ### Strings -/

/-- The value of a hexadecimal digit. -/
def hexValue? (c : Char) : Option Nat :=
  if c.isDigit then some (c.toNat - '0'.toNat)
  else if 'a' ≤ c && c ≤ 'f' then some (c.toNat - 'a'.toNat + 10)
  else if 'A' ≤ c && c ≤ 'F' then some (c.toNat - 'A'.toNat + 10)
  else none

/-- The 16-bit unit of four hexadecimal digits. -/
def unit? (a b c d : Char) : Option Nat := do
  let a ← hexValue? a
  let b ← hexValue? b
  let c ← hexValue? c
  let d ← hexValue? d
  some (((a * 16 + b) * 16 + c) * 16 + d)

/-- The character of a one-letter escape. -/
def escaped? : Char → Option Char
  | '"' => some '"'
  | '\\' => some '\\'
  | '/' => some '/'
  | 'b' => some '\x08'
  | 'f' => some '\x0c'
  | 'n' => some '\n'
  | 'r' => some '\r'
  | 't' => some '\t'
  | _ => none

/-- Puts a character in front of what a string holds. -/
def consChar (c : Char) (r : Option (List Char × List Char)) : Option (List Char × List Char) :=
  r.map fun p => (c :: p.1, p.2)

/-- A string from behind its opening quote, and the text behind its closing quote. `high` is the
first half of a surrogate pair whose second half must follow. -/
def stringBody (high : Option Nat) : List Char → Option (List Char × List Char)
  | [] => none
  | '"' :: rest => if high.isSome then none else some ([], rest)
  | '\\' :: 'u' :: a :: b :: c :: d :: rest =>
    match unit? a b c d, high with
    | none, _ => none
    | some n, some h =>
      if 0xDC00 ≤ n && n ≤ 0xDFFF then
        consChar (Char.ofNat (0x10000 + (h - 0xD800) * 0x400 + (n - 0xDC00)))
          (stringBody none rest)
      else none
    | some n, none =>
      if 0xD800 ≤ n && n ≤ 0xDBFF then stringBody (some n) rest
      else if 0xDC00 ≤ n && n ≤ 0xDFFF then none
      else consChar (Char.ofNat n) (stringBody none rest)
  | '\\' :: e :: rest =>
    match escaped? e, high with
    | some c, none => consChar c (stringBody none rest)
    | _, _ => none
  | c :: rest =>
    if high.isSome || c.toNat < 0x20 then none else consChar c (stringBody none rest)

/-! ### Numbers -/

/-- The largest whole number that a significand may reach. -/
def maxSignificand : Nat := UInt64.size - 1

/-- The digits that fit into the significand `n`, and the text from the first that does not. -/
def takeDigits (n : Nat) : List Char → Nat × Nat × List Char
  | [] => (n, 0, [])
  | c :: rest =>
    if c.isDigit then
      let m := 10 * n + (c.toNat - '0'.toNat)
      if m ≤ maxSignificand then
        let r := takeDigits m rest
        (r.1, r.2.1 + 1, r.2.2)
      else (n, 0, c :: rest)
    else (n, 0, c :: rest)

/-- The number of leading digits, and the text behind them. -/
def countDigits (s : List Char) : Nat × List Char :=
  ((s.takeWhile Char.isDigit).length, s.dropWhile Char.isDigit)

/-- The power of ten as a floating-point number. -/
def pow10 (e : Nat) : Float := Float.ofScientific 1 false e

/-- The significand times a power of ten: one multiplication or division, after as many divisions
by `10 ^ 308` as a very small number needs. `none` when it is out of range. -/
def scaled (f : Float) (e : Int) : Option Float :=
  if e ≥ 0 then
    if e ≤ 308 then
      let r := f * pow10 e.toNat
      if r.isInf then none else some r
    else if f == 0 then some f else none
  else if e ≥ -308 then some (f / pow10 (-e).toNat)
  else
    let f := f / pow10 308
    if e + 308 ≥ -308 then some (f / pow10 (-(e + 308)).toNat)
    else
      let f := f / pow10 308
      if e + 616 ≥ -308 then some (f / pow10 (-(e + 616)).toNat) else some (f * 0)

/-- The floating-point number of the parts of a numeral. -/
def realOf (negative : Bool) (significand : Nat) (e : Int) : Option Json :=
  (scaled significand.toUInt64.toFloat e).map fun f => .real (if negative then -f else f)

/-- The exponent part from behind its letter. -/
def exponent (negative : Bool) (significand : Nat) (e : Int) (s : List Char) :
    Option (Json × List Char) :=
  let (down, s) := match s with
    | '+' :: r => (false, r)
    | '-' :: r => (true, r)
    | r => (false, r)
  let ds := s.takeWhile Char.isDigit
  let rest := s.dropWhile Char.isDigit
  if ds.isEmpty then none
  else
    let n := ds.foldl (fun n c => 10 * n + (c.toNat - '0'.toNat)) 0
    if n ≤ 2147483647 then
      (realOf negative significand (if down then e - n else e + n)).map fun v => (v, rest)
    else if significand != 0 && !down then none
    else some (.real (if negative then -0.0 else 0.0), rest)

/-- What follows the digits of a floating-point number: an exponent or the end. -/
def finish (negative : Bool) (significand : Nat) (e : Int) (s : List Char) :
    Option (Json × List Char) :=
  match s with
  | 'e' :: r | 'E' :: r => exponent negative significand e r
  | r => (realOf negative significand e).map fun v => (v, r)

/-- The fraction part from behind its point. -/
def fraction (negative : Bool) (significand : Nat) (e : Int) (s : List Char) :
    Option (Json × List Char) :=
  let (m, used, rest) := takeDigits significand s
  let (more, rest) := countDigits rest
  if used + more = 0 then none else finish negative m (e - used) rest

/-- A whole number with its sign. Zero with a minus sign is the negative zero of floating point, as
are the negative numbers that do not fit into 64 bits. -/
def wholeNumber (negative : Bool) (n : Nat) : Json :=
  if !negative then .int n
  else if n = 0 || n > 9223372036854775808 then .real (-n.toUInt64.toFloat)
  else .int (-(n : Int))

/-- A number from behind its sign. -/
def unsignedNumber (negative : Bool) (s : List Char) : Option (Json × List Char) :=
  let tail := fun (n : Nat) (rest : List Char) =>
    match rest with
    | '.' :: r => fraction negative n 0 r
    | 'e' :: _ | 'E' :: _ => finish negative n 0 rest
    | _ => some (wholeNumber negative n, rest)
  match s with
  | '0' :: rest =>
    match rest with
    | c :: _ => if c.isDigit then none else tail 0 rest
    | [] => tail 0 rest
  | c :: rest =>
    if c.isDigit then
      let (n, _, rest) := takeDigits (c.toNat - '0'.toNat) rest
      let (more, rest') := countDigits rest
      if more = 0 then tail n rest
      else match rest' with
        | '.' :: r => fraction negative n more r
        | _ => finish negative n more rest'
    else none
  | [] => none

/-- A number. -/
def number : List Char → Option (Json × List Char)
  | '-' :: rest => unsignedNumber true rest
  | s => unsignedNumber false s

/-! ### Values -/

mutual

/-- A value and the text behind it; no text when the value broke off. -/
def value : Nat → Nat → List Char → Json × Option (List Char)
  | 0, _, _ => (.malformed, none)
  | fuel + 1, depth, s =>
    match skipBlanks s with
    | '"' :: r =>
      match stringBody none r with
      | some (cs, rest) => (.str (String.ofList cs), some rest)
      | none => (.malformed, none)
    | '[' :: r =>
      match depth with
      | 0 => (.malformed, none)
      | depth + 1 =>
        match skipBlanks r with
        | ']' :: rest => (.arr [], some rest)
        | r =>
          let p := items fuel depth r
          (.arr p.1, p.2)
    | '\x7b' :: r =>
      match depth with
      | 0 => (.malformed, none)
      | depth + 1 =>
        match skipBlanks r with
        | '\x7d' :: rest => (.obj [], some rest)
        | r =>
          let p := fields fuel depth r
          (.obj p.1, p.2)
    | 'n' :: 'u' :: 'l' :: 'l' :: rest => (.null, some rest)
    | 't' :: 'r' :: 'u' :: 'e' :: rest => (.bool true, some rest)
    | 'f' :: 'a' :: 'l' :: 's' :: 'e' :: rest => (.bool false, some rest)
    | s =>
      match number s with
      | some (v, rest) => (v, some rest)
      | none => (.malformed, none)

/-- The items of an array up to its closing bracket. -/
def items : Nat → Nat → List Char → List Json × Option (List Char)
  | 0, _, _ => ([.malformed], none)
  | fuel + 1, depth, s =>
    match value fuel depth s with
    | (v, none) => ([v], none)
    | (v, some r) =>
      match skipBlanks r with
      | ',' :: r =>
        let p := items fuel depth r
        (v :: p.1, p.2)
      | ']' :: rest => ([v], some rest)
      | _ => ([v, .malformed], none)

/-- The fields of an object up to its closing brace. -/
def fields : Nat → Nat → List Char → List (String × Json) × Option (List Char)
  | 0, _, _ => ([("", .malformed)], none)
  | fuel + 1, depth, s =>
    match skipBlanks s with
    | '"' :: r =>
      match stringBody none r with
      | none => ([("", .malformed)], none)
      | some (cs, r) =>
        match skipBlanks r with
        | ':' :: r =>
          match value fuel depth r with
          | (v, none) => ([(String.ofList cs, v)], none)
          | (v, some r) =>
            match skipBlanks r with
            | ',' :: r =>
              let p := fields fuel depth r
              ((String.ofList cs, v) :: p.1, p.2)
            | '\x7d' :: rest => ([(String.ofList cs, v)], some rest)
            | _ => ([(String.ofList cs, v), ("", .malformed)], none)
        | _ => ([("", .malformed)], none)
    | _ => ([("", .malformed)], none)

end

/-- The value at the start of a text, and whether the text is that value and nothing more. -/
def read (s : String) : Json × Bool :=
  let cs := s.toList
  let p := value (2 * cs.length + 2) maxDepth cs
  (p.1, match p.2 with
    | some rest => (skipBlanks rest).isEmpty
    | none => false)

/-- The value of a text that is JSON. -/
def parse? (s : String) : Option Json :=
  let p := read s
  if p.2 then some p.1 else none

end EventCatalog.Json
