import EventCatalog.Json.Decode
import EventCatalog.Text.Blank
import EventCatalog.Text.Numeral
import EventCatalog.Time.Instant

/-!
# Times in writing

A timestamp is written in UTC as a date, a `T`, a time of day and a `Z`, with as many digits of the
second's fraction as are exact: none, three, six or nine. Years outside 0 to 9999 carry a sign. Nanoseconds
of a whole second or more are written as one second more, so only instants have a form of their own.

Reading is more liberal: numbers may be shorter, blanks may stand before them, a blank may stand for
the `T`, any offset is accepted, and digits of the fraction behind the ninth are passed over.
-/

namespace EventCatalog

open Text (trimStart padded digitsValue)
open Time (Date)

/-! ### Writing -/

namespace Timestamp

/-- A year: four digits, or a sign and at least four. -/
def renderYear (year : Int) : List Char :=
  if 0 ≤ year ∧ year ≤ 9999 then padded 4 year.toNat
  else (if year < 0 then '-' else '+') :: padded 4 year.natAbs

/-- The fraction of a second, given in nanoseconds. -/
def renderFraction (nanos : Nat) : List Char :=
  if nanos = 0 then []
  else if nanos % 1000000 = 0 then '.' :: padded 3 (nanos / 1000000)
  else if nanos % 1000 = 0 then '.' :: padded 6 (nanos / 1000)
  else '.' :: padded 9 nanos

/-- The characters of the written form. -/
def renderChars (t : Timestamp) : List Char :=
  let day := t.seconds / 86400
  let rest := (t.seconds % 86400).toNat
  let d := Date.ofDayNumber day
  -- a leap second is the sixtieth of its minute
  let extra := t.nanos / 1000000000
  renderYear d.year ++ '-' :: padded 2 d.month ++ '-' :: padded 2 d.day ++
    'T' :: padded 2 (rest / 3600) ++ ':' :: padded 2 (rest / 60 % 60) ++
    ':' :: padded 2 (rest % 60 + extra) ++ renderFraction (t.nanos % 1000000000) ++ ['Z']

/-- The written form. -/
def render (t : Timestamp) : String := String.ofList (renderChars t)

/-- A timestamp as JSON: its written form. -/
def toJson (t : Timestamp) : Json := .str t.render

end Timestamp

namespace Instant

instance : ToString Instant := ⟨fun t => t.render⟩

instance : Repr Instant := ⟨fun t _ => t.render⟩

/-! ### Reading -/

/-- A number of one to `most` digits behind blanks. -/
def number (most : Nat) (s : List Char) : Option (Nat × List Char) :=
  let s := trimStart s
  let ds := (s.take most).takeWhile Char.isDigit
  if ds.isEmpty then none else some (digitsValue ds, s.drop ds.length)

/-- A number with a bound on its value. -/
def numberIn (least greatest most : Nat) (s : List Char) : Option (Nat × List Char) := do
  let (n, rest) ← number most s
  if least ≤ n && n ≤ greatest then some (n, rest) else none

/-- A number of any length directly behind a sign. -/
def signedNumber (s : List Char) : Option (Nat × List Char) :=
  let ds := s.takeWhile Char.isDigit
  if ds.isEmpty then none else some (digitsValue ds, s.dropWhile Char.isDigit)

/-- A year: up to four digits, or a sign and any number of digits. -/
def year (s : List Char) : Option (Int × List Char) :=
  match trimStart s with
  | '-' :: r => (signedNumber r).map fun p => (-(p.1 : Int), p.2)
  | '+' :: r => (signedNumber r).map fun p => ((p.1 : Int), p.2)
  | r => (number 4 r).map fun p => ((p.1 : Int), p.2)

/-- The given character, behind blanks. -/
def mark (c : Char) (s : List Char) : Option (List Char) :=
  match trimStart s with
  | d :: rest => if d = c then some rest else none
  | [] => none

/-- The fraction of a second in nanoseconds; zero if there is none. -/
def fraction : List Char → Option (Nat × List Char)
  | '.' :: s =>
    let ds := (s.take 9).takeWhile Char.isDigit
    if ds.isEmpty then none
    else some (digitsValue ds * Nat.pow 10 (9 - ds.length), s.dropWhile Char.isDigit)
  | s => some (0, s)

/-- Two digits. -/
def twoDigits : List Char → Option (Nat × List Char)
  | a :: b :: rest => if a.isDigit && b.isDigit then some (digitsValue [a, b], rest) else none
  | _ => none

/-- Hours and minutes of an offset in seconds. -/
def offsetSize (s : List Char) : Option (Int × List Char) := do
  let (h, s) ← twoDigits s
  let (m, s) ← twoDigits (s.dropWhile fun c => c == ':' || Text.isBlank c)
  if m < 60 then some (((h * 3600 + m * 60 : Nat) : Int), s) else none

/-- The offset from UTC in seconds. -/
def offset (s : List Char) : Option (Int × List Char) :=
  match s with
  | 'Z' :: rest | 'z' :: rest => some (0, rest)
  | '+' :: rest => offsetSize rest
  | '-' :: rest | '−' :: rest => (offsetSize rest).map fun p => (-p.1, p.2)
  | a :: b :: c :: rest =>
    if [a, b, c].map Char.toUpper = ['U', 'T', 'C'] then some (0, rest) else none
  | _ => none

/-- The character between date and time. -/
def separator : List Char → Option (List Char)
  | 'T' :: rest | 't' :: rest | ' ' :: rest => some rest
  | _ => none

/-- The date in front of a text. -/
def date (s : List Char) : Option (Date × List Char) := do
  let (y, s) ← year s
  let s ← mark '-' s
  let (m, s) ← numberIn 1 12 2 s
  let s ← mark '-' s
  let (d, s) ← numberIn 1 31 2 s
  some (⟨y, m, d⟩, s)

/-- The second of the day, and the nanosecond within it, in front of a text. -/
def timeOfDay (s : List Char) : Option ((Nat × Nat) × List Char) := do
  let (hour, s) ← numberIn 0 23 2 s
  let s ← mark ':' s
  let (minute, s) ← numberIn 0 59 2 s
  let s ← mark ':' s
  let (second, s) ← numberIn 0 60 2 s
  let (nanos, s) ← fraction s
  if second = 60 then some ((hour * 3600 + minute * 60 + 59, nanos + 1000000000), s)
  else some ((hour * 3600 + minute * 60 + second, nanos), s)

/-- The characters of a time as an instant. -/
def ofChars? (s : List Char) : Option Instant := do
  let (d, s) ← date s
  let s ← separator s
  let ((second, nanos), s) ← timeOfDay s
  let (off, s) ← offset (trimStart s)
  if !(trimStart s).isEmpty || !d.isValid || d.year < -262143 || d.year > 262142
      || off.natAbs ≥ 86400 then none
  else of? (d.dayNumber * 86400 + second - off) nanos

/-- Reads a time. -/
def ofText? (s : String) : Option Instant := ofChars? s.toList

/-! ### JSON -/

/-- An instant as JSON: its written form. -/
def toJson (t : Instant) : Json := t.toTimestamp.toJson

/-- Decodes a time. -/
def decoder : Json.Decoder Instant
  | .str s =>
    match ofText? s with
    | some t => .ok t
    | none => .error (.unreadable ("no time: " ++ s))
  | v => Json.wrongType "an RFC 3339 formatted date and time string" v

end Instant

end EventCatalog
