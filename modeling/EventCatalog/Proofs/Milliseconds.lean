import Mathlib.Order.Basic
import EventCatalog.Time.Instant

/-!
# Times in whole milliseconds

Rounding down to whole milliseconds keeps the order of times (`Instant.millis_le_millis`), and a time can be made of
the milliseconds again (`Instant.ofMillis?_millis`). Both hold but for leap seconds: in whole milliseconds a leap
second counts as the second behind it. So times within it come to lie behind the start of that second, and where there
is no second behind it, at the very end of the representable times, no time can be made of them.
-/

namespace EventCatalog

namespace Instant

variable {a b t : Instant} {ms : Int}

/-- The seconds decide about the order, and within one second the nanoseconds. -/
theorem le_iff : a ≤ b ↔ a.seconds < b.seconds ∨ a.seconds = b.seconds ∧ a.nanos ≤ b.nanos := by
  change (compare a.seconds b.seconds).then (compare a.nanos b.nanos) ≠ .gt ↔ _
  rcases Int.lt_trichotomy a.seconds b.seconds with hlt | heq | hgt
  · rw [Int.compare_eq_lt.2 hlt]
    exact iff_of_true nofun (.inl hlt)
  · rw [Std.LawfulEqOrd.compare_eq_iff_eq.2 heq, Ordering.eq_then, ne_eq, Nat.compare_eq_gt]
    omega
  · rw [Int.compare_eq_gt.2 hgt]
    exact iff_of_false (fun h => h rfl) (by omega)

/-- A time within a leap second. -/
def IsLeap (t : Instant) : Prop := 1000000000 ≤ t.nanos

instance (t : Instant) : Decidable t.IsLeap := inferInstanceAs (Decidable (1000000000 ≤ t.nanos))

/-- Rounding down keeps the order of times, unless the earlier one is within a leap second. -/
theorem millis_le_millis (h : a ≤ b) (ha : ¬ a.IsLeap) : a.millis ≤ b.millis := by
  unfold IsLeap at ha
  unfold Timestamp.millis
  -- the earlier time has less than a second of nanoseconds
  rcases le_iff.1 h with hlt | ⟨heq, hnanos⟩
  · omega
  -- within one second the nanoseconds decide
  · have hmillis : a.nanos / 1000000 ≤ b.nanos / 1000000 := Nat.div_le_div_right hnanos
    omega

/-- A time within the leap second behind the last second that can be represented. -/
def IsFinalLeap (t : Instant) : Prop := t.seconds = lastSecond ∧ t.IsLeap

instance (t : Instant) : Decidable t.IsFinalLeap := inferInstanceAs (Decidable (_ ∧ _))

/-- These are the times with the most milliseconds. -/
theorem isFinalLeap_iff : t.IsFinalLeap ↔ lastSecond * 1000 + 1000 ≤ t.millis := by
  have hlast := t.le_last
  have hnanos := t.nanos_lt
  -- the seconds are at most the last, and the nanoseconds less than two seconds
  unfold IsFinalLeap IsLeap Timestamp.millis
  omega

/-- The parts of a time that is made of milliseconds. -/
theorem parts_of_ofMillis? (h : ofMillis? ms = some t) :
    t.seconds = ms / 1000 ∧ t.nanos = (ms % 1000).toNat * 1000000 := by
  unfold ofMillis? of? at h
  split at h
  · rw [← Option.some.inj h]
    exact ⟨rfl, rfl⟩
  · cases h

/-- A time that is made of milliseconds has these, and no parts of them. -/
theorem millis_of_ofMillis? (h : ofMillis? ms = some t) : t.millis = ms ∧ t.nanos % 1000000 = 0 := by
  obtain ⟨hseconds, hnanos⟩ := parts_of_ofMillis? h
  unfold Timestamp.millis
  omega

/-- Times that are made of milliseconds are in the order of these. -/
theorem le_of_ofMillis? {ms' : Int} (ha : ofMillis? ms = some a) (hb : ofMillis? ms' = some b) (h : ms ≤ ms') :
    a ≤ b := by
  obtain ⟨hsa, hna⟩ := parts_of_ofMillis? ha
  obtain ⟨hsb, hnb⟩ := parts_of_ofMillis? hb
  rw [le_iff]
  omega

/-- **A time can be made of the milliseconds of a time**, but for the leap second at the end of all times. -/
theorem ofMillis?_millis (t : Instant) : ofMillis? t.millis = none ↔ t.IsFinalLeap := by
  have hfirst := t.first_le
  have hlast := t.le_last
  have hnanos := t.nanos_lt
  rw [isFinalLeap_iff]
  unfold ofMillis? of?
  split
  -- a time can be made of the milliseconds if they are within the representable seconds
  · next h =>
    refine iff_of_false (Option.some_ne_none _) ?_
    have := h.2.1
    omega
  · next h =>
    refine iff_of_true rfl ?_
    by_contra hsmall
    unfold Timestamp.millis at h hsmall
    exact h ⟨by omega, by omega, by omega, by omega⟩

end Instant

end EventCatalog
