import EventCatalog.Time.Civil

/-!
# Points in time

A `Timestamp` counts seconds from the start of 1970 in UTC and nanoseconds within the second, up to two
whole seconds of them: a second with more than one is longer than others. Written out, only the last
second of a minute can be a long one, as leap seconds are. The `Instant`s are the timestamps that keep
to that. They are what is read from texts.
-/

namespace EventCatalog

/-- The first second that can be represented: the start of the year -262143. -/
def Instant.firstSecond : Int := -8334601228800

/-- The last second that can be represented: the end of the year 262142. -/
def Instant.lastSecond : Int := 8210266876799

/-- A point in time. Any second may have a nanosecond count of a whole second or more. -/
structure Timestamp where
  seconds : Int
  nanos : Nat
  first_le : Instant.firstSecond ≤ seconds
  le_last : seconds ≤ Instant.lastSecond
  nanos_lt : nanos < 2000000000
deriving DecidableEq, Repr

/-- The whole milliseconds since the start of 1970, rounded down. -/
def Timestamp.millis (t : Timestamp) : Int := t.seconds * 1000 + t.nanos / 1000000

/-- Two timestamps with the same parts are the same. -/
theorem Timestamp.ext_parts {a b : Timestamp} (hs : a.seconds = b.seconds) (hn : a.nanos = b.nanos) :
    a = b := by
  cases a; cases b; simp_all

/-- A point in time that can be written out: a nanosecond count of a whole second or more is that of a leap
second, the last second of its minute. -/
structure Instant extends Timestamp where
  leap : 1000000000 ≤ nanos → seconds % 60 = 59
deriving DecidableEq

/-- The types of times. -/
class HasTimestamp (τ : Type) where
  timestamp : τ → Timestamp

export HasTimestamp (timestamp)

@[default_instance]
instance : HasTimestamp Instant := ⟨Instant.toTimestamp⟩

instance : HasTimestamp Timestamp := ⟨id⟩

namespace Instant

/-- The instant of these parts, if there is one. -/
def of? (seconds : Int) (nanos : Nat) : Option Instant :=
  if h : firstSecond ≤ seconds ∧ seconds ≤ lastSecond ∧ nanos < 2000000000 ∧
      (1000000000 ≤ nanos → seconds % 60 = 59) then
    some ⟨⟨seconds, nanos, h.1, h.2.1, h.2.2.1⟩, h.2.2.2⟩
  else none

/-- The start of 1970. -/
def epoch : Instant := ⟨⟨0, 0, by decide, by decide, by decide⟩, by decide⟩

/-- The earliest point in time. -/
def earliest : Instant := ⟨⟨firstSecond, 0, by decide, by decide, by decide⟩, by decide⟩

instance : Inhabited Instant := ⟨epoch⟩

/-- The instant that many milliseconds after the start of 1970. -/
def ofMillis? (ms : Int) : Option Instant := of? (ms / 1000) ((ms % 1000).toNat * 1000000)

/-- Nanoseconds since the start of 1970. -/
def totalNanos (t : Instant) : Int := t.seconds * 1000000000 + t.nanos

instance : Ord Instant where
  compare a b := (compare a.seconds b.seconds).then (compare a.nanos b.nanos)

instance : LE Instant := ⟨fun a b => compare a b ≠ .gt⟩

instance (a b : Instant) : Decidable (a ≤ b) :=
  inferInstanceAs (Decidable (compare a b ≠ .gt))

/-- The parts of an instant give it back. -/
theorem of?_parts (t : Instant) : of? t.seconds t.nanos = some t := by
  have h := And.intro t.first_le (And.intro t.le_last (And.intro t.nanos_lt t.leap))
  simp only [of?, dif_pos h]

/-- Two instants with the same parts are the same. -/
theorem ext_parts {a b : Instant} (hs : a.seconds = b.seconds) (hn : a.nanos = b.nanos) :
    a = b := by
  have h : a.toTimestamp = b.toTimestamp := Timestamp.ext_parts hs hn
  cases a; cases b; cases h; rfl

end Instant

end EventCatalog
