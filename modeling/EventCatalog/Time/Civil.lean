/-!
# The calendar

Days are numbered from the first of January 1970 on, in the Gregorian calendar carried on in both
directions, with a year 0. `dayNumber` and `Date.ofDayNumber` go from a date to its day and back.
-/

namespace EventCatalog.Time

/-- A date of the calendar. -/
structure Date where
  year : Int
  month : Nat
  day : Nat
deriving DecidableEq, Repr

/-- Whether the year has a 29th of February. -/
def isLeapYear (year : Int) : Bool :=
  year % 4 == 0 && (year % 100 != 0 || year % 400 == 0)

/-- The number of days of a month. -/
def daysInMonth (year : Int) (month : Nat) : Nat :=
  match month with
  | 2 => if isLeapYear year then 29 else 28
  | 4 | 6 | 9 | 11 => 30
  | _ => 31

/-- The number of days before the first of January of a year, from that of the year 1 on. -/
def daysBefore (year : Int) : Int :=
  let y := year - 1
  365 * y + y / 4 - y / 100 + y / 400

/-- The number of the first day of a year. -/
def yearStart (year : Int) : Int := daysBefore year - 719162

/-- The number of days of the year before the first of a month. -/
def monthStart (year : Int) (month : Nat) : Nat :=
  (List.range (month - 1)).foldl (fun n m => n + daysInMonth year (m + 1)) 0

/-- The number of a day. -/
def Date.dayNumber (d : Date) : Int :=
  yearStart d.year + monthStart d.year d.month + d.day - 1

/-- Whether there is such a date. -/
def Date.isValid (d : Date) : Bool :=
  1 ≤ d.month && d.month ≤ 12 && 1 ≤ d.day && d.day ≤ daysInMonth d.year d.month

/-- The year of a day. The mean length of a year gives it up to a year. -/
def yearOfDay (n : Int) : Int :=
  let guess := (n + 719162) * 400 / 146097 + 1
  if n < yearStart guess then guess - 1
  else if yearStart (guess + 1) ≤ n then guess + 1
  else guess

/-- The month, from `month` on within `left` months, and the day of the month, of the `k`-th day
after the first of `month`. -/
def monthAndDay (year : Int) (month k : Nat) : Nat → Nat × Nat
  | 0 => (month, k + 1)
  | left + 1 =>
    if k < daysInMonth year month then (month, k + 1)
    else monthAndDay year (month + 1) (k - daysInMonth year month) left

/-- The date of a day. -/
def Date.ofDayNumber (n : Int) : Date :=
  let year := yearOfDay n
  let p := monthAndDay year 1 (n - yearStart year).toNat 11
  ⟨year, p.1, p.2⟩

end EventCatalog.Time
