import EventCatalog.Time.Civil

/-!
# The date of a day

`Date.ofDayNumber` finds the date of a day, and `Date.dayNumber` gives the day back
(`dayNumber_ofDayNumber`). The date is one of the calendar (`isValid_ofDayNumber`).

The search has two stages. `yearOfDay` guesses the year from the mean length of a year; the guess is
off by one year at most, because the leap days of the years before run ahead of the mean by less
than one day and fall behind it by less than two (`yearOfDay_spec`). `monthAndDay` then takes the
months off one after the other (`monthAndDay_spec`).
-/

namespace EventCatalog.Time

/-! ### Years -/

/-- A year has 365 days, or 366 if it is a leap year. -/
theorem yearStart_succ (y : Int) :
    yearStart (y + 1) = yearStart y + if isLeapYear y then 366 else 365 := by
  simp only [yearStart, daysBefore, isLeapYear, Bool.and_eq_true, Bool.or_eq_true, beq_iff_eq,
    bne_iff_ne]
  -- leap years are those that the three counts of `daysBefore` step at
  split <;> omega

/-- Later years start later. -/
theorem yearStart_mono {y z : Int} (h : y ≤ z) : yearStart y ≤ yearStart z := by
  have h₄ : (y - 1) / 4 ≤ (z - 1) / 4 := by omega
  have h₁₀₀ : (z - 1) / 100 ≤ (y - 1) / 100 + (z - y) := by omega
  have h₄₀₀ : (y - 1) / 400 ≤ (z - 1) / 400 := by omega
  simp only [yearStart, daysBefore]
  omega

/-- The day lies in the year that is found for it. -/
theorem yearOfDay_spec (n : Int) :
    yearStart (yearOfDay n) ≤ n ∧ n < yearStart (yearOfDay n + 1) := by
  unfold yearOfDay
  simp only
  -- the guess, less one, counts the mean years before the day
  generalize hg : (n + 719162) * 400 / 146097 = g
  have hlo : g * 146097 ≤ (n + 719162) * 400 := by omega
  have hhi : (n + 719162) * 400 < (g + 1) * 146097 := by omega
  clear hg
  -- the guess is a year too late, a year too early, or right
  split
  · next h =>
    simp only [yearStart, daysBefore] at h ⊢
    omega
  · next h =>
    split
    · next h' =>
      simp only [yearStart, daysBefore] at h h' ⊢
      omega
    · next h' =>
      omega

/-! ### Months -/

/-- The days before the next month are those before the month and its own. -/
theorem monthStart_succ (y : Int) {month : Nat} (h : 1 ≤ month) :
    monthStart y (month + 1) = monthStart y month + daysInMonth y month := by
  obtain ⟨m, rfl⟩ : ∃ m, month = m + 1 := ⟨month - 1, by omega⟩
  simp only [monthStart, Nat.add_sub_cancel, List.range_succ, List.foldl_append, List.foldl_cons,
    List.foldl_nil]

/-- The twelve months make the year. -/
theorem monthStart_thirteen (y : Int) :
    monthStart y 13 = if isLeapYear y then 366 else 365 := by
  cases h : isLeapYear y <;> simp [monthStart, daysInMonth, h, List.range_succ]

/-- The month and the day that are found for the `k`-th day after the first of `month` are such a
day of the calendar, and that day is it. -/
theorem monthAndDay_spec (y : Int) {month k left : Nat} (h : 1 ≤ month)
    (hk : monthStart y month + k < monthStart y (month + left + 1)) :
    month ≤ (monthAndDay y month k left).1 ∧
      (monthAndDay y month k left).1 ≤ month + left ∧
      1 ≤ (monthAndDay y month k left).2 ∧
      (monthAndDay y month k left).2 ≤ daysInMonth y (monthAndDay y month k left).1 ∧
      monthStart y (monthAndDay y month k left).1 + (monthAndDay y month k left).2 =
        monthStart y month + k + 1 := by
  induction left generalizing month k with
  | zero =>
    rw [Nat.add_zero, monthStart_succ y h] at hk
    simp only [monthAndDay]
    omega
  | succ left ih =>
    rw [monthAndDay]
    split
    · next hlt =>
      simp only
      omega
    · next hge =>
      -- the rest of the days lie behind this month
      have hnext := monthStart_succ y h
      have hk' : monthStart y (month + 1) + (k - daysInMonth y month) <
          monthStart y (month + 1 + left + 1) := by
        rw [show month + 1 + left + 1 = month + (left + 1) + 1 by omega]
        omega
      have := ih (by omega) hk'
      omega

/-! ### Dates -/

section OfDayNumber

variable (n : Int)

/-- What is known of the month and the day of the date that is found. -/
private theorem ofDayNumber_parts :
    1 ≤ (Date.ofDayNumber n).month ∧ (Date.ofDayNumber n).month ≤ 12 ∧
      1 ≤ (Date.ofDayNumber n).day ∧
      (Date.ofDayNumber n).day ≤
        daysInMonth (Date.ofDayNumber n).year (Date.ofDayNumber n).month ∧
      monthStart (Date.ofDayNumber n).year (Date.ofDayNumber n).month +
        (Date.ofDayNumber n).day = (n - yearStart (yearOfDay n)).toNat + 1 := by
  obtain ⟨hlo, hhi⟩ := yearOfDay_spec n
  have hyear := yearStart_succ (yearOfDay n)
  have hmonths := monthStart_thirteen (yearOfDay n)
  have hk : monthStart (yearOfDay n) 1 + (n - yearStart (yearOfDay n)).toNat <
      monthStart (yearOfDay n) (1 + 11 + 1) := by
    have hone : monthStart (yearOfDay n) 1 = 0 := rfl
    rw [hone, hmonths]
    -- the day is less than a year behind the start of its year
    cases hleap : isLeapYear (yearOfDay n) <;> rw [hleap] at hyear <;> simp at hyear ⊢ <;> omega
  have hspec := monthAndDay_spec (yearOfDay n) (Nat.le_refl 1) hk
  have hone : monthStart (yearOfDay n) 1 = 0 := rfl
  rw [hone, Nat.zero_add] at hspec
  exact hspec

/-- The date that is found for a day is one of the calendar. -/
theorem isValid_ofDayNumber : (Date.ofDayNumber n).isValid = true := by
  obtain ⟨h₁, h₂, h₃, h₄, -⟩ := ofDayNumber_parts n
  simp only [Date.isValid, Bool.and_eq_true, decide_eq_true_eq]
  exact ⟨⟨⟨h₁, h₂⟩, h₃⟩, h₄⟩

/-- The date that is found for a day has the number of that day. -/
theorem dayNumber_ofDayNumber : (Date.ofDayNumber n).dayNumber = n := by
  obtain ⟨-, -, -, -, h⟩ := ofDayNumber_parts n
  obtain ⟨hlo, -⟩ := yearOfDay_spec n
  have hyear : (Date.ofDayNumber n).year = yearOfDay n := rfl
  rw [Date.dayNumber, hyear]
  rw [hyear] at h
  omega

/-- The day of the month has two digits at most. -/
theorem day_ofDayNumber_le : (Date.ofDayNumber n).day ≤ 31 := by
  obtain ⟨-, -, -, h, -⟩ := ofDayNumber_parts n
  refine Nat.le_trans h ?_
  unfold daysInMonth
  split <;> (try split) <;> decide

end OfDayNumber

end EventCatalog.Time
