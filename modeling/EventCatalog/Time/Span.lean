import EventCatalog.Text.Numeral
import EventCatalog.Time.Instant

/-!
# Lengths of time

A `Duration` is a length of time in nanoseconds, with a sign. It is written in the manner of ISO 8601
with as few digits of the fraction as are exact. A `Span` is one of whole milliseconds.
-/

namespace EventCatalog

/-- A length of time. -/
structure Duration where
  nanos : Int
deriving DecidableEq, Repr, Inhabited

/-- The written form. -/
def Duration.render (d : Duration) : String :=
  let n := d.nanos.natAbs
  let sign := if d.nanos < 0 then "-" else ""
  if n = 0 then "P0D"
  else
    let fraction := (Text.padded 9 (n % 1000000000)).reverse.dropWhile (· == '0')
    let tail := if fraction.isEmpty then "" else "." ++ String.ofList fraction.reverse
    sign ++ "PT" ++ toString (n / 1000000000) ++ tail ++ "S"

/-- A length of time in whole milliseconds. -/
structure Span where
  millis : Int
deriving DecidableEq, Repr, Inhabited

namespace Span

/-- The span as a length of time. -/
def duration (s : Span) : Duration := ⟨s.millis * 1000000⟩

/-- The longest span: its milliseconds just fit into 64 bits. -/
def longest : Span := ⟨9223372036854775807⟩

/-- The span of a number of milliseconds; a number that does not fit makes the longest one. -/
def ofMillis (ms : Nat) : Span := if ms ≤ 9223372036854775807 then ⟨ms⟩ else longest

/-- The span of a number of days. -/
def ofDays (days : Int) : Span := ⟨days * 86400000⟩

/-- The span of a number of days, if its milliseconds fit into 64 bits. -/
def ofDays? (days : Int) : Option Span :=
  if (ofDays days).millis.natAbs ≤ 9223372036854775807 then some (ofDays days) else none

end Span

/-- The instant that lies a length of time before another, if it can be represented. What is less than
a second before a time in a leap second may still be in it. -/
def Instant.before? (t : Instant) (d : Duration) : Option Instant :=
  if 0 ≤ d.nanos && d.nanos < 1000000000 && d.nanos ≤ t.nanos then
    Instant.of? t.seconds (t.nanos - d.nanos.toNat)
  else
    let total := t.totalNanos - d.nanos
    Instant.of? (total / 1000000000) (total % 1000000000).toNat

end EventCatalog
