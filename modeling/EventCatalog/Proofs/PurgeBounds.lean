import Mathlib.Order.MinMax
import EventCatalog.Proofs.FilterQueries
import EventCatalog.Settings.Event

/-!
# Bounds of the purge intervals

A table has at most 1000 partitions, so it holds its rows for 1000 times the time that a partition spans, and no
longer purge interval is accepted. The bound is computed in 64 bits, by two multiplications that saturate and a
division. Against exact arithmetic (`PartitionTable.span`) this comes to one saturation: the bound is the number of
whole days in 1000 spans, or in the greatest number of minutes if that is less (`PartitionTable.toInt_maxPurgeDays`).
So it is never more than what the partitions hold, and all that is asked of it follows from that one equation.

Days are counted whole from one on, so a table can be too small for any purge interval. Among the partitionings that
are accepted these are the tables with partitions of a single minute (`SettingsLimits.exists_accepted_iff`).
-/

namespace EventCatalog

/-! ### Saturation -/

/-- What saturates is cut off at the greatest number of 64 bits, if it is not negative. -/
theorem toInt_ofIntClamp_of_nonneg {n : Int} (h : 0 ≤ n) :
    (Int64.ofIntClamp n).toInt = min n Int64.maxValue.toInt := by
  have hmin := Int64.toInt_minValue
  rcases le_or_gt n Int64.maxValue.toInt with hle | hgt
  · rw [Int64.toInt_ofIntClamp (by omega) hle, min_eq_left hle]
  · rw [min_eq_right hgt.le, Int64.ofIntClamp, dif_pos (by omega), dif_neg (by omega)]

/-! ### Tables -/

namespace PartitionTable

variable {t u : PartitionTable}

/-- The minutes that a partition spans, in exact arithmetic. -/
def span (t : PartitionTable) : Int :=
  t.duration.toInt * match t.unit with
    | .minutes => 1
    | .hours => 60
    | .days => 1440

/-- The unit that the limits work with has the same minutes. -/
theorem span_eq (t : PartitionTable) : t.span = t.duration.toInt * t.unit.minutesPer := by
  unfold span
  cases t.unit <;> rfl

/-- A partitioning is accepted with a name, a positive span, and numbers of partitions that are not negative and not
both zero. -/
theorem validate_eq_ok_iff : t.validate = .ok () ↔ Text.trim t.tableName.toList ≠ [] ∧ 0 < t.duration ∧
    (0 ≤ t.initialPast ∧ 0 ≤ t.future) ∧ ¬ (t.initialPast = 0 ∧ t.future = 0) := by
  simp only [validate, List.isEmpty_iff, Bool.or_eq_true, Bool.and_eq_true, decide_eq_true_eq]
  split
  · next h => exact iff_of_false (by simp) (fun hall => hall.1 h)
  split
  · next h => exact iff_of_false (by simp) (fun hall => Int64.not_le.2 hall.2.1 h)
  split
  · next h =>
    refine iff_of_false (by simp) ?_
    rintro ⟨-, -, ⟨hpast, hfuture⟩, -⟩
    exact h.elim (Int64.not_lt.2 hpast) (Int64.not_lt.2 hfuture)
  split
  · next h => exact iff_of_false (by simp) (fun hall => hall.2.2.2 h)
  · next hname hduration hcounts hboth =>
    rw [not_or, Int64.not_lt, Int64.not_lt] at hcounts
    exact iff_of_true rfl ⟨hname, Int64.not_le.1 hduration, hcounts, hboth⟩

/-- A table whose partitioning is accepted has partitions of a positive span. -/
theorem span_pos (h : t.validate = .ok ()) : 0 < t.span := by
  have hduration : 0 < t.duration.toInt := Int64.lt_iff_toInt_lt.1 (validate_eq_ok_iff.1 h).2.1
  have hunit : 0 < t.unit.minutesPer := by cases t.unit <;> decide
  rw [span_eq]
  exact Int.mul_pos hduration hunit

/-- The minutes that a partition spans, saturated. -/
theorem toInt_minutes (h : 0 < t.span) : t.minutes.toInt = min t.span Int64.maxValue.toInt := by
  rw [span_eq] at h ⊢
  exact toInt_ofIntClamp_of_nonneg h.le

/-- The whole days in a thousand spans, saturated once more. -/
theorem toInt_maxPurgeDays_of_minutes (h : 0 ≤ t.minutes.toInt) :
    t.maxPurgeDays.toInt = min (t.minutes.toInt * 1000) Int64.maxValue.toInt / 1440 := by
  have hmax := Int64.toInt_maxValue
  have hday : (1440 : Int64).toInt = 1440 := rfl
  have hproduct : 0 ≤ t.minutes.toInt * maxPartitions := Int.mul_nonneg h (by decide)
  -- nothing is negative, so dividing rounds down
  rw [maxPurgeDays, Int64.toInt_div_of_ne_right _ _ (by decide), toInt_ofIntClamp_of_nonneg hproduct, hday,
    Int.tdiv_eq_ediv_of_nonneg (by omega), maxPartitions]

/-- **The bound** is the number of whole days in a thousand spans, saturated. -/
theorem toInt_maxPurgeDays (h : 0 < t.span) :
    t.maxPurgeDays.toInt = min (t.span * 1000) Int64.maxValue.toInt / 1440 := by
  have hmax := Int64.toInt_maxValue
  have hminutes := toInt_minutes h
  rw [toInt_maxPurgeDays_of_minutes (by omega), hminutes]
  -- what saturates first saturates again
  congr 1
  omega

/-- Longer partitions hold no less. -/
theorem maxPurgeDays_mono (ht : 0 < t.span) (h : t.span ≤ u.span) : t.maxPurgeDays ≤ u.maxPurgeDays := by
  -- saturation and division both keep the order
  rw [Int64.le_iff_toInt_le, toInt_maxPurgeDays ht, toInt_maxPurgeDays (by omega)]
  omega

/-- **What is within the bound** the partitions hold. -/
theorem held_of_le {days : Int64} (ht : t.validate = .ok ()) (h : days ≤ t.maxPurgeDays) :
    days.toInt * 1440 ≤ t.span * 1000 := by
  have hbound := toInt_maxPurgeDays (span_pos ht)
  rw [Int64.le_iff_toInt_le] at h
  omega

/-- A bound of a day or more takes partitions of more than a minute. -/
theorem one_le_maxPurgeDays_iff (h : 0 < t.span) : 1 ≤ t.maxPurgeDays ↔ 2 ≤ t.span := by
  have hmax := Int64.toInt_maxValue
  have hone : (1 : Int64).toInt = 1 := rfl
  rw [Int64.le_iff_toInt_le, toInt_maxPurgeDays h, hone]
  omega

end PartitionTable

namespace Partitions

theorem validate_eq_ok {p : Partitions} :
    p.validate = .ok () ↔ p.archive.validate = .ok () ∧ p.occurrence.validate = .ok () := by
  rw [validate, Except.bind_eq_ok]
  constructor
  · rintro ⟨⟨⟩, harchive, hoccurrence⟩
    exact ⟨harchive, hoccurrence⟩
  · rintro ⟨harchive, hoccurrence⟩
    exact ⟨(), harchive, hoccurrence⟩

/-- The partitioning that holds by default, with partitions of a number of minutes for the archive. -/
def ofMinutes (minutes : Int64) : Partitions :=
  { default with archive := ⟨"event_archive", minutes, .minutes, 1, 3⟩ }

theorem validate_ofMinutes {minutes : Int64} (h : 0 < minutes) : (ofMinutes minutes).validate = .ok () := by
  rw [validate_eq_ok, PartitionTable.validate_eq_ok_iff, PartitionTable.validate_eq_ok_iff]
  -- the table of the occurrences is as it is by default
  have harchive : Text.trim "event_archive".toList ≠ [] := by decide +kernel
  have hoccurrence : Text.trim "event".toList ≠ [] := by decide +kernel
  have hcounts : (0 : Int64) ≤ 1 ∧ (0 : Int64) ≤ 3 := by decide
  have hboth : ¬ ((1 : Int64) = 0 ∧ (3 : Int64) = 0) := by decide
  have hhour : (0 : Int64) < 1 := by decide
  exact ⟨⟨harchive, h, hcounts, hboth⟩, hoccurrence, hhour, hcounts, hboth⟩

end Partitions

/-! ### Settings -/

namespace SettingsLimits

variable {limits : SettingsLimits} {p : Partitions} {s : EventSettings}

theorem checkDays_eq_ok {what : String} {days greatest : Int64} :
    checkDays what days greatest = .ok () ↔ 1 ≤ days ∧ days ≤ greatest := by
  rw [checkDays]
  split
  · next h => exact iff_of_true rfl h
  · next h => exact iff_of_false (by simp) h

/-- Settings are accepted when all four intervals are within their bounds. -/
theorem validate_eq_ok_iff : limits.validate s = .ok () ↔ ¬ s.ageIntervalMinutes < 0 ∧
    (1 ≤ s.archivePurgeDays ∧ s.archivePurgeDays ≤ limits.archivePurgeDays) ∧
    (1 ≤ s.occurrencePurgeDays ∧ s.occurrencePurgeDays ≤ limits.occurrencePurgeDays) ∧
    1 ≤ s.archiveDays ∧ s.archiveDays ≤ limits.archiveDays := by
  rw [validate]
  by_cases hage : s.ageIntervalMinutes < 0
  · rw [if_pos hage]
    exact iff_of_false (fun h => by cases h) (fun h => h.1 hage)
  · rw [if_neg hage]
    simp only [Except.bind_eq_ok]
    constructor
    · rintro ⟨⟨⟩, harchive, ⟨⟩, hoccurrence, hclosed⟩
      exact ⟨hage, checkDays_eq_ok.1 harchive, checkDays_eq_ok.1 hoccurrence, checkDays_eq_ok.1 hclosed⟩
    · rintro ⟨-, harchive, hoccurrence, hclosed⟩
      exact ⟨(), checkDays_eq_ok.2 harchive, (), checkDays_eq_ok.2 hoccurrence, checkDays_eq_ok.2 hclosed⟩

/-- **No accepted purge interval exceeds what the partitions hold.** The bound of a table whose partitioning is
accepted is computed by two steps that are exact or saturate. It is not negative, never more than the whole days in a
thousand spans, as many as those when their minutes can be counted in 64 bits, and grows with the span. So the purge
intervals of settings that are accepted are a day or more, and a thousand partitions hold them. -/
theorem accepted_intervals_held :
    (∀ t : PartitionTable, t.validate = .ok () →
      (t.minutes.toInt = min t.span Int64.maxValue.toInt ∧
        t.maxPurgeDays.toInt = min (t.minutes.toInt * 1000) Int64.maxValue.toInt / 1440) ∧
      (0 ≤ t.maxPurgeDays.toInt ∧ t.maxPurgeDays.toInt ≤ t.span * 1000 / 1440) ∧
      (t.span * 1000 ≤ Int64.maxValue.toInt → t.maxPurgeDays.toInt = t.span * 1000 / 1440) ∧
      ∀ u : PartitionTable, t.span ≤ u.span → t.maxPurgeDays ≤ u.maxPurgeDays) ∧
    ∀ (p : Partitions) (archiveDays : Int64) (s : EventSettings), p.validate = .ok () →
      { ofPartitions p with archiveDays := archiveDays }.validate s = .ok () →
      (1 ≤ s.archivePurgeDays ∧ s.archivePurgeDays.toInt * 1440 ≤ p.archive.span * 1000) ∧
        1 ≤ s.occurrencePurgeDays ∧ s.occurrencePurgeDays.toInt * 1440 ≤ p.occurrence.span * 1000 := by
  constructor
  · intro t ht
    have hspan := t.span_pos ht
    have hminutes := t.toInt_minutes hspan
    have hmax := Int64.toInt_maxValue
    refine ⟨⟨hminutes, t.toInt_maxPurgeDays_of_minutes (by omega)⟩, ?_, ?_, ?_⟩
    · rw [t.toInt_maxPurgeDays hspan]
      omega
    · intro hfits
      rw [t.toInt_maxPurgeDays hspan, min_eq_left hfits]
    · exact fun u => t.maxPurgeDays_mono hspan
  · intro p archiveDays s hp hs
    obtain ⟨harchive, hoccurrence⟩ := Partitions.validate_eq_ok.1 hp
    -- the limits of the settings are the bounds of the two tables
    obtain ⟨-, ⟨ha, hale⟩, ⟨ho, hole⟩, -⟩ := validate_eq_ok_iff.1 hs
    exact ⟨⟨ha, p.archive.held_of_le harchive hale⟩, ho, p.occurrence.held_of_le hoccurrence hole⟩

/-- The span may be the greatest number of minutes; the settings that hold by default are then accepted. -/
theorem accepted_intervals_held_greatest :
    (Partitions.ofMinutes Int64.maxValue).validate = .ok () ∧
      (ofPartitions (Partitions.ofMinutes Int64.maxValue)).validate EventSettings.default = .ok () ∧
      (Partitions.ofMinutes Int64.maxValue).archive.maxPurgeDays.toInt ≤
        (Partitions.ofMinutes Int64.maxValue).archive.span * 1000 / 1440 ∧
      EventSettings.default.archivePurgeDays.toInt * 1440 ≤
        (Partitions.ofMinutes Int64.maxValue).archive.span * 1000 := by
  have hvalid : (Partitions.ofMinutes Int64.maxValue).validate = .ok () :=
    Partitions.validate_ofMinutes (by decide)
  have hsettings : (ofPartitions (Partitions.ofMinutes Int64.maxValue)).validate EventSettings.default = .ok () :=
    validate_eq_ok_iff.2 (by decide)
  exact ⟨hvalid, hsettings, (accepted_intervals_held.1 _ (Partitions.validate_eq_ok.1 hvalid).1).2.1.2,
    (accepted_intervals_held.2 _ 30 _ hvalid hsettings).1.2⟩

/-- **A partitioning can be configured** that is accepted, unless a table has partitions of a single minute. A
thousand minutes are less than a day, so nothing is within the bound of such a table. -/
theorem exists_accepted_iff (h : p.validate = .ok ()) :
    (∃ s, (ofPartitions p).validate s = .ok ()) ↔ 2 ≤ p.archive.span ∧ 2 ≤ p.occurrence.span := by
  obtain ⟨harchive, hoccurrence⟩ := Partitions.validate_eq_ok.1 h
  rw [← p.archive.one_le_maxPurgeDays_iff (p.archive.span_pos harchive),
    ← p.occurrence.one_le_maxPurgeDays_iff (p.occurrence.span_pos hoccurrence)]
  constructor
  · rintro ⟨s, hs⟩
    obtain ⟨-, ⟨ha, hale⟩, ⟨ho, hole⟩, -⟩ := validate_eq_ok_iff.1 hs
    exact ⟨Int64.le_trans ha hale, Int64.le_trans ho hole⟩
  · rintro ⟨ha, ho⟩
    have hone : (1 : Int64) ≤ 1 := Int64.le_refl 1
    have hclosed : (3 : Int64) ≤ 30 := by decide
    -- the least intervals are within every bound of a day or more
    exact ⟨{ EventSettings.default with archivePurgeDays := 1, occurrencePurgeDays := 1 },
      validate_eq_ok_iff.2 ⟨by decide, ⟨hone, ha⟩, ⟨hone, ho⟩, by decide, hclosed⟩⟩

/-- Two minutes are enough. -/
theorem exists_accepted_two_minutes : (Partitions.ofMinutes 2).validate = .ok () ∧
    ∃ s, (ofPartitions (Partitions.ofMinutes 2)).validate s = .ok () := by
  have hvalid : (Partitions.ofMinutes 2).validate = .ok () := Partitions.validate_ofMinutes (by decide)
  exact ⟨hvalid, (exists_accepted_iff hvalid).2 (by decide)⟩

/-- A single minute is accepted as well, but the greatest purge interval is then of no days, and no settings are. -/
theorem not_exists_accepted_single_minute : (Partitions.ofMinutes 1).validate = .ok () ∧
    (Partitions.ofMinutes 1).archive.maxPurgeDays = 0 ∧
    ¬ ∃ s, (ofPartitions (Partitions.ofMinutes 1)).validate s = .ok () := by
  refine ⟨Partitions.validate_ofMinutes (by decide), by decide, ?_⟩
  rintro ⟨s, hs⟩
  obtain ⟨-, ⟨hone, hle⟩, -⟩ := validate_eq_ok_iff.1 hs
  have hbound : ¬ (1 : Int64) ≤ (Partitions.ofMinutes 1).archive.maxPurgeDays := by decide
  exact hbound (Int64.le_trans hone hle)

end SettingsLimits

end EventCatalog
