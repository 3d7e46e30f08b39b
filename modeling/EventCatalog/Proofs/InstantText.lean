import EventCatalog.Proofs.Calendar
import EventCatalog.Proofs.Numerals
import EventCatalog.Time.Rfc3339

/-!
# Written times read back

Every instant is read back from its written form: years outside 0 to 9999 with their sign, all nine
digits of the fraction, and leap seconds, which are written as the sixtieth second of their minute. Of
other timestamps the nanoseconds of a whole second or more are written as one second more. What is read
back is the instant that has the same written form (`Timestamp.asWritten`, `ofText?_render`).

The reader goes through the text from the front. For each part there is a lemma that reads what was
written of it and leaves what stands behind; `ofChars?_renderChars` puts them together. Numbers of
two or four digits end by their length; the digits of a year with a sign and those of the fraction
end where the next mark stands.
-/

namespace EventCatalog

open Text (trimStart padded digitsValue NoDigitAhead)
open Time (Date)

/-! ### Timestamps as they are written -/

namespace Timestamp

/-- Whether a timestamp is an instant: a nanosecond count of a whole second or more is that of a leap second. -/
def IsInstant (t : Timestamp) : Prop := 1000000000 ≤ t.nanos → t.seconds % 60 = 59

instance (t : Timestamp) : Decidable t.IsInstant :=
  inferInstanceAs (Decidable (1000000000 ≤ t.nanos → t.seconds % 60 = 59))

/-- The instant that the written form of a timestamp shows: what goes beyond a second is a part of the next one,
but for leap seconds. -/
def asWritten (t : Timestamp) : Instant :=
  if h : t.IsInstant then ⟨t, h⟩
  else {
    seconds := t.seconds + 1
    nanos := t.nanos - 1000000000
    first_le := Int.le_add_one t.first_le
    le_last := by
      -- the last second is the last of its minute
      have hlast := t.le_last
      have hvalue : Instant.lastSecond = 8210266876799 := rfl
      unfold IsInstant at h
      omega
    nanos_lt := by have := t.nanos_lt; omega
    leap := by have := t.nanos_lt; omega }

theorem asWritten_of_isInstant {t : Timestamp} (h : t.IsInstant) : t.asWritten = ⟨t, h⟩ := dif_pos h

/-- **Only instants are written as they are.** -/
theorem toTimestamp_asWritten_eq_iff (t : Timestamp) : t.asWritten.toTimestamp = t ↔ t.IsInstant := by
  constructor
  · exact fun h => h ▸ t.asWritten.leap
  · exact fun h => by rw [asWritten_of_isInstant h]

/-- A timestamp is written like the instant that its written form shows. -/
theorem renderChars_asWritten (t : Timestamp) : t.asWritten.renderChars = t.renderChars := by
  unfold asWritten
  split
  · rfl
  · next h =>
    have hnanos := t.nanos_lt
    simp only [IsInstant, Classical.not_imp] at h
    -- the second behind is in the same minute, so only the seconds of the minute differ
    have hday : (t.seconds + 1) / 86400 = t.seconds / 86400 := by omega
    have hhour : ((t.seconds + 1) % 86400).toNat / 3600 = (t.seconds % 86400).toNat / 3600 := by omega
    have hminute : ((t.seconds + 1) % 86400).toNat / 60 % 60 = (t.seconds % 86400).toNat / 60 % 60 := by omega
    have hsecond : ((t.seconds + 1) % 86400).toNat % 60 + (t.nanos - 1000000000) / 1000000000 =
        (t.seconds % 86400).toNat % 60 + t.nanos / 1000000000 := by omega
    have hfraction : (t.nanos - 1000000000) % 1000000000 = t.nanos % 1000000000 := by omega
    simp only [renderChars, hday, hhour, hminute, hsecond, hfraction]

end Timestamp

/-- An instant is written as it is. -/
@[simp] theorem Instant.asWritten_toTimestamp (t : Instant) : t.toTimestamp.asWritten = t :=
  Timestamp.asWritten_of_isInstant t.leap

namespace Instant

open Timestamp (renderYear renderFraction)

/-! ### Numbers of a fixed length -/

/-- As many digits as the reader takes at most are read whole, whatever follows. -/
theorem number_append {most : Nat} {ds s : List Char} (hlen : ds.length = most) (hne : ds ≠ [])
    (hd : ∀ c ∈ ds, c.isDigit = true) : number most (ds ++ s) = some (digitsValue ds, s) := by
  have htake : ((ds ++ s).take most).takeWhile Char.isDigit = ds := by
    rw [List.take_append_of_le_length (by omega), ← hlen, List.take_length]
    simpa using Text.takeWhile_isDigit_append hd .nil
  simp only [number, Text.trimStart_digits_append hne hd, htake, List.isEmpty_iff, hne, if_false,
    List.drop_left]

/-- A number that fits its width is read back. -/
theorem numberIn_padded (least greatest width : Nat) {n : Nat} {s : List Char} (hw : 0 < width)
    (hn : n < 10 ^ width) (hl : least ≤ n) (hg : n ≤ greatest) :
    numberIn least greatest width (padded width n ++ s) = some (n, s) := by
  have h := number_append (s := s) (Text.length_padded hw hn) (Text.padded_ne_nil width n)
    fun c hc => Text.isDigit_of_mem_padded hc
  rw [Text.digitsValue_padded] at h
  simp [numberIn, h, hl, hg]

/-! ### The year -/

/-- A number behind a sign ends where the digits end. -/
theorem signedNumber_padded {width n : Nat} {s : List Char} (hs : NoDigitAhead s) :
    signedNumber (padded width n ++ s) = some (n, s) := by
  have hd : ∀ c ∈ padded width n, c.isDigit = true := fun c hc => Text.isDigit_of_mem_padded hc
  simp only [signedNumber, Text.takeWhile_isDigit_append hd hs,
    Text.dropWhile_isDigit_append hd hs, List.isEmpty_iff, Text.padded_ne_nil, if_false,
    Text.digitsValue_padded]

/-- A year of four digits is read back. -/
private theorem year_padded {n : Nat} {s : List Char} (hn : n < 10000) :
    year (padded 4 n ++ s) = some ((n : Int), s) := by
  have hd : ∀ c ∈ padded 4 n, c.isDigit = true := fun c hc => Text.isDigit_of_mem_padded hc
  have hnum := number_append (s := s) (Text.length_padded (by decide) hn)
    (Text.padded_ne_nil 4 n) hd
  rw [Text.digitsValue_padded] at hnum
  rw [year, Text.trimStart_digits_append (Text.padded_ne_nil 4 n) hd]
  -- neither sign is a digit, so the text is read as a plain number
  cases hds : padded 4 n with
  | nil => exact absurd hds (Text.padded_ne_nil 4 n)
  | cons c cs =>
    have hc := hd c (by rw [hds]; simp)
    rw [hds] at hnum
    split
    · next h =>
      obtain rfl := (List.cons.inj h).1
      exact absurd hc (by decide)
    · next h =>
      obtain rfl := (List.cons.inj h).1
      exact absurd hc (by decide)
    · rw [hnum]
      rfl

/-- A written year is read back. -/
theorem year_renderYear {y : Int} {s : List Char} (hs : NoDigitAhead s) :
    year (renderYear y ++ s) = some (y, s) := by
  unfold renderYear
  split
  · next h =>
    rw [year_padded (by omega)]
    simp only [Option.some.injEq, Prod.mk.injEq, and_true]
    omega
  · next h =>
    have hread : signedNumber (padded 4 y.natAbs ++ s) = some (y.natAbs, s) :=
      signedNumber_padded hs
    -- outside of four digits a year has a sign in front, either of the two
    by_cases hneg : y < 0
    · rw [if_pos hneg, List.cons_append, year,
        Text.trimStart_cons (Text.isBlank_of_visible (by decide) (by decide))]
      simp only [hread]
      simp only [Option.map_some, Option.some.injEq, Prod.mk.injEq, and_true]
      omega
    · rw [if_neg hneg, List.cons_append, year,
        Text.trimStart_cons (Text.isBlank_of_visible (by decide) (by decide))]
      simp only [hread]
      simp only [Option.map_some, Option.some.injEq, Prod.mk.injEq, and_true]
      omega

/-! ### Marks and the fraction -/

/-- A visible mark is found where it stands. -/
theorem mark_cons {c : Char} {s : List Char} (h₁ : 0x21 ≤ c.toNat) (h₂ : c.toNat ≤ 0x7E) :
    mark c (c :: s) = some s := by
  rw [mark, Text.trimStart_cons (Text.isBlank_of_visible h₁ h₂)]
  simp

/-- The digits of a fraction are read up to the `Z`, and count by their number. -/
private theorem fraction_padded {width n : Nat} (hw : 0 < width) (hle : width ≤ 9)
    (hn : n < 10 ^ width) :
    fraction ('.' :: padded width n ++ ['Z']) = some (n * 10 ^ (9 - width), ['Z']) := by
  have hd : ∀ c ∈ padded width n, c.isDigit = true := fun c hc => Text.isDigit_of_mem_padded hc
  have hlen := Text.length_padded hw hn
  have hz : NoDigitAhead ['Z'] := .cons (by decide)
  have htake : ((padded width n ++ ['Z']).take 9).takeWhile Char.isDigit = padded width n := by
    rw [List.take_append, List.take_of_length_le (by omega)]
    refine Text.takeWhile_isDigit_append hd ?_
    -- the reader looks at nine characters, so it may see the `Z` as well
    cases 9 - (padded width n).length with
    | zero => exact .nil
    | succ k => exact .cons (by decide)
  rw [List.cons_append, fraction]
  simp only [htake, Text.dropWhile_isDigit_append hd hz, List.isEmpty_iff, Text.padded_ne_nil,
    if_false, Text.digitsValue_padded, hlen]
  rfl

/-- A written fraction is read back: its digits were left out only where they are zeros. -/
theorem fraction_renderFraction {nanos : Nat} (h : nanos < 1000000000) :
    fraction (renderFraction nanos ++ ['Z']) = some (nanos, ['Z']) := by
  unfold renderFraction
  split
  · next h₀ => rw [h₀]; rfl
  -- three digits, six, or nine, as many as are needed
  · split
    · rw [fraction_padded (by decide) (by decide) (by omega)]
      simp only [Option.some.injEq, Prod.mk.injEq, and_true]
      omega
    · split
      · rw [fraction_padded (by decide) (by decide) (by omega)]
        simp only [Option.some.injEq, Prod.mk.injEq, and_true]
        omega
      · rw [fraction_padded (by decide) (by decide) h]
        simp

/-! ### Date and time of day -/

/-- The date of a day is read back up to the separator. -/
theorem date_append {d : Date} {s : List Char} (hmonth : 1 ≤ d.month ∧ d.month ≤ 12)
    (hday : 1 ≤ d.day ∧ d.day ≤ 31) :
    date (renderYear d.year ++ '-' :: padded 2 d.month ++ '-' :: padded 2 d.day ++ s) =
      some (d, s) := by
  simp only [List.append_assoc, List.cons_append]
  have hyear := year_renderYear (y := d.year) (.cons (by decide) :
    NoDigitAhead ('-' :: (padded 2 d.month ++ '-' :: (padded 2 d.day ++ s))))
  have hm := numberIn_padded 1 12 2 (s := '-' :: (padded 2 d.day ++ s)) (by decide) (by omega)
    hmonth.1 hmonth.2
  have hd := numberIn_padded 1 31 2 (s := s) (by decide) (by omega) hday.1 hday.2
  have hmark := fun s => mark_cons (c := '-') (s := s) (by decide) (by decide)
  simp only [date, hyear, hmark, hm, hd, Option.bind_eq_bind, Option.bind_some]

/-- The second of the day and the nanosecond within it are read back. A second with a nanosecond
count of a whole second or more is written as the sixtieth of its minute. -/
theorem timeOfDay_append {rest nanos : Nat} (hrest : rest < 86400) (hnanos : nanos < 2000000000)
    (hleap : 1000000000 ≤ nanos → rest % 60 = 59) :
    timeOfDay (padded 2 (rest / 3600) ++ ':' :: padded 2 (rest / 60 % 60) ++
      ':' :: padded 2 (rest % 60 + nanos / 1000000000) ++
        renderFraction (nanos % 1000000000) ++ ['Z']) = some ((rest, nanos), ['Z']) := by
  -- a second more is written only within a leap second
  have hextra : nanos / 1000000000 = if 1000000000 ≤ nanos then 1 else 0 := by
    split <;> omega
  have hsecond : rest % 60 + nanos / 1000000000 ≤ 60 := by
    rw [hextra]
    split <;> omega
  simp only [List.append_assoc, List.cons_append]
  have hh := fun s => numberIn_padded 0 23 2 (n := rest / 3600) (s := s) (by decide) (by omega)
    (by omega) (by omega)
  have hm := fun s => numberIn_padded 0 59 2 (n := rest / 60 % 60) (s := s) (by decide) (by omega)
    (by omega) (by omega)
  have hs := fun s => numberIn_padded 0 60 2 (n := rest % 60 + nanos / 1000000000) (s := s)
    (by decide) (by omega) (by omega) hsecond
  have hf : fraction (renderFraction (nanos % 1000000000) ++ ['Z']) =
      some (nanos % 1000000000, ['Z']) := fraction_renderFraction (by omega)
  have hmark := fun s => mark_cons (c := ':') (s := s) (by decide) (by decide)
  simp only [timeOfDay, hh, hm, hs, hf, hmark, Option.bind_eq_bind, Option.bind_some]
  split
  -- the sixtieth second is read as the one before it, with more nanoseconds
  · next h =>
    have hl : 1000000000 ≤ nanos := by omega
    have := hleap hl
    simp only [Option.some.injEq, Prod.mk.injEq, and_true]
    omega
  · next h =>
    have hl : ¬ 1000000000 ≤ nanos := by
      intro hl
      have := hleap hl
      omega
    simp only [Option.some.injEq, Prod.mk.injEq, and_true]
    omega

/-! ### Instants -/

/-- The years of all instants are among those that a date may have. -/
theorem year_bounds (t : Instant) :
    -262143 ≤ (Date.ofDayNumber (t.seconds / 86400)).year ∧
      (Date.ofDayNumber (t.seconds / 86400)).year ≤ 262142 := by
  obtain ⟨hlo, hhi⟩ := Time.yearOfDay_spec (t.seconds / 86400)
  have hfirst := t.first_le
  have hlast := t.le_last
  simp only [firstSecond, lastSecond] at hfirst hlast
  have hyear : (Date.ofDayNumber (t.seconds / 86400)).year =
      Time.yearOfDay (t.seconds / 86400) := rfl
  rw [hyear]
  constructor
  · -- a year before would end before the first second
    refine Int.not_lt.1 fun hlt => ?_
    have hmono := Time.yearStart_mono (y := Time.yearOfDay (t.seconds / 86400) + 1)
      (z := -262143) (by omega)
    have hstart : Time.yearStart (-262143) = -96465292 := rfl
    omega
  · -- a year behind would start behind the last second
    refine Int.not_lt.1 fun hlt => ?_
    have hmono := Time.yearStart_mono (y := 262143)
      (z := Time.yearOfDay (t.seconds / 86400)) (by omega)
    have hstart : Time.yearStart 262143 = 95026237 := rfl
    omega

/-- Every instant is read back from the characters of its written form. -/
theorem ofChars?_renderChars (t : Instant) : ofChars? t.renderChars = some t := by
  have hvalid := Time.isValid_ofDayNumber (t.seconds / 86400)
  have hnumber := Time.dayNumber_ofDayNumber (t.seconds / 86400)
  have hday := Time.day_ofDayNumber_le (t.seconds / 86400)
  obtain ⟨hy₁, hy₂⟩ := year_bounds t
  unfold Timestamp.renderChars
  simp only
  generalize hd : Date.ofDayNumber (t.seconds / 86400) = d at *
  generalize hr : (t.seconds % 86400).toNat = rest
  simp only [Date.isValid, Bool.and_eq_true, decide_eq_true_eq] at hvalid
  have hdate := fun s => date_append (d := d) (s := s) hvalid.1.1 ⟨hvalid.1.2, hday⟩
  -- days are whole minutes, so the second of the minute is that of the day
  have hleap : 1000000000 ≤ t.nanos → rest % 60 = 59 := by
    intro h
    have := t.leap h
    omega
  have htime := timeOfDay_append (show rest < 86400 by omega) t.nanos_lt hleap
  have hz : trimStart ['Z'] = ['Z'] :=
    Text.trimStart_cons (Text.isBlank_of_visible (by decide) (by decide))
  simp only [List.append_assoc, List.cons_append] at hdate htime ⊢
  rw [ofChars?, hdate]
  simp only [Option.bind_eq_bind, Option.bind_some, separator, htime, hz, offset]
  have hvalid' : d.isValid = true := by
    simp only [Date.isValid, Bool.and_eq_true, decide_eq_true_eq]
    exact hvalid
  have hempty : (trimStart ([] : List Char)).isEmpty = true := rfl
  have hseconds : d.dayNumber * 86400 + (rest : Int) - 0 = t.seconds := by
    rw [hnumber]
    omega
  rw [if_neg, hseconds]
  · exact of?_parts t
  · simp only [hempty, hvalid', Bool.not_true, Bool.false_or, Bool.or_eq_true, decide_eq_true_eq]
    omega

/-- **What is read back** from the written form of a timestamp is the instant that it shows. -/
theorem ofText?_render (t : Timestamp) : ofText? t.render = some t.asWritten := by
  rw [ofText?, Timestamp.render, String.toList_ofList, ← t.renderChars_asWritten, ofChars?_renderChars]

/-- The JSON form of a timestamp is decoded likewise. -/
theorem decoder_toJson (t : Timestamp) : decoder t.toJson = .ok t.asWritten := by
  simp only [Timestamp.toJson, decoder, ofText?_render]

end Instant

end EventCatalog
