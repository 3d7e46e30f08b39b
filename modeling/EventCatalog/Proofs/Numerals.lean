import Mathlib.Algebra.Group.Nat.Defs
import EventCatalog.Text.Blank
import EventCatalog.Text.Numeral

/-!
# Numerals read back

What is written as a numeral is read as the number that it was written from. A reader that takes
digits as long as there are any has to know where the numeral ends: `NoDigitAhead` says of the text
behind it that it does not go on with a digit, and `takeWhile_isDigit_append` cuts the digits off
there.
-/

namespace EventCatalog.Text

/-! ### The digits of a numeral -/

/-- The value of digits is that of the standard library. -/
theorem digitsValue_eq (ds : List Char) : digitsValue ds = Nat.ofDigitChars 10 ds 0 := rfl

/-- Padding with zeros leaves the value as it is. -/
theorem digitsValue_padded (width n : Nat) : digitsValue (padded width n) = n := by
  -- zeros in front are nothing times a power of ten
  rw [digitsValue_eq, padded, Nat.ofDigitChars_append, Nat.ofDigitChars_replicate_zero,
    Nat.mul_zero, Nat.ofDigitChars_ten_toDigits]

theorem digitsValue_toDigits (n : Nat) : digitsValue (Nat.toDigits 10 n) = n :=
  Nat.ofDigitChars_ten_toDigits

theorem isDigit_of_mem_toDigits {n : Nat} {c : Char} (h : c ∈ Nat.toDigits 10 n) :
    c.isDigit = true :=
  Nat.isDigit_of_mem_toDigits (by decide) (by decide) h

/-- A padded numeral has nothing but digits. -/
theorem isDigit_of_mem_padded {width n : Nat} {c : Char} (h : c ∈ padded width n) :
    c.isDigit = true := by
  rcases List.mem_append.1 h with h | h
  · rw [(List.mem_replicate.1 h).2]
    decide
  · exact isDigit_of_mem_toDigits h

/-- A padded numeral that fits has exactly the width. -/
theorem length_padded {width n : Nat} (hw : 0 < width) (h : n < 10 ^ width) :
    (padded width n).length = width := by
  -- a number below a power of ten has no more digits than its exponent
  have hle := (Nat.length_toDigits_le_iff (by decide : 1 < 10) hw).2 h
  rw [padded, List.length_append, List.length_replicate]
  omega

theorem padded_ne_nil (width n : Nat) : padded width n ≠ [] := by
  intro h
  exact Nat.toDigits_ne_nil (List.append_eq_nil_iff.1 h).2

/-! ### Where a numeral ends -/

/-- The text does not begin with a digit. -/
def NoDigitAhead (s : List Char) : Prop := ∀ c ∈ s.head?, c.isDigit = false

theorem NoDigitAhead.nil : NoDigitAhead [] := by
  intro c h
  simp at h

theorem NoDigitAhead.cons {c : Char} {s : List Char} (h : c.isDigit = false) :
    NoDigitAhead (c :: s) := by
  intro d hd
  obtain rfl : c = d := by simpa using hd
  exact h

/-- The digits in front of a text are those of the numeral. -/
theorem takeWhile_isDigit_append {ds s : List Char} (hd : ∀ c ∈ ds, c.isDigit = true)
    (hs : NoDigitAhead s) : (ds ++ s).takeWhile Char.isDigit = ds := by
  rw [List.takeWhile_append_of_pos hd]
  cases s with
  | nil => simp
  | cons c s =>
    rw [List.takeWhile_cons_of_neg (by simp [hs c (by simp)]), List.append_nil]

/-- What stands behind the digits is what followed the numeral. -/
theorem dropWhile_isDigit_append {ds s : List Char} (hd : ∀ c ∈ ds, c.isDigit = true)
    (hs : NoDigitAhead s) : (ds ++ s).dropWhile Char.isDigit = s := by
  rw [List.dropWhile_append_of_pos hd]
  cases s with
  | nil => rfl
  | cons c s => rw [List.dropWhile_cons_of_neg (by simp [hs c (by simp)])]

/-! ### Digits are not blank -/

/-- A digit is one of ten characters. -/
theorem toNat_of_isDigit {c : Char} (h : c.isDigit = true) : 48 ≤ c.toNat ∧ c.toNat ≤ 57 := by
  simp only [Char.isDigit, Bool.and_eq_true, decide_eq_true_eq] at h
  exact ⟨h.1, h.2⟩

/-- The visible characters of ASCII are not blank. -/
theorem isBlank_of_visible {c : Char} (h₁ : 0x21 ≤ c.toNat) (h₂ : c.toNat ≤ 0x7E) :
    isBlank c = false := by
  simp only [isBlank, inRanges, blankRanges]
  simp
  omega

theorem isBlank_space : isBlank ' ' = true := by
  simp [isBlank, inRanges, blankRanges]

theorem isBlank_of_isDigit {c : Char} (h : c.isDigit = true) : isBlank c = false := by
  obtain ⟨h₁, h₂⟩ := toNat_of_isDigit h
  exact isBlank_of_visible (by omega) (by omega)

/-- There is nothing to skip in front of a text whose first character is not blank. -/
theorem trimStart_cons {c : Char} {s : List Char} (h : isBlank c = false) :
    trimStart (c :: s) = c :: s := by
  rw [trimStart, List.dropWhile_cons_of_neg (by simp [h])]

theorem trimStart_digits_append {ds s : List Char} (hne : ds ≠ [])
    (hd : ∀ c ∈ ds, c.isDigit = true) : trimStart (ds ++ s) = ds ++ s := by
  cases ds with
  | nil => exact absurd rfl hne
  | cons c ds => exact trimStart_cons (isBlank_of_isDigit (hd c (by simp)))

/-- A text without blanks has none to trim. -/
theorem trim_eq_self {s : List Char} (h : ∀ c ∈ s, isBlank c = false) : trim s = s := by
  have hstart : ∀ t : List Char, (∀ c ∈ t, isBlank c = false) → trimStart t = t := by
    intro t ht
    cases t with
    | nil => rfl
    | cons c t => exact trimStart_cons (ht c (by simp))
  -- the text is trimmed, turned round and trimmed again, each time for nothing
  rw [trim, hstart s h, hstart s.reverse fun c hc => h c (List.mem_reverse.1 hc), List.reverse_reverse]

/-! ### A numeral as a whole -/

theorem natOf?_toDigits (n : Nat) : natOf? (Nat.toDigits 10 n) = some n := by
  have hdigits : (Nat.toDigits 10 n).all Char.isDigit = true :=
    List.all_eq_true.2 fun c hc => isDigit_of_mem_toDigits hc
  have hne : (Nat.toDigits 10 n).isEmpty = false := by
    rw [List.isEmpty_eq_false_iff]
    exact Nat.toDigits_ne_nil
  rw [natOf?, hne, hdigits, digitsValue_toDigits]
  rfl

/-- A numeral without a sign is read as the number that it was written from. -/
theorem signedOf?_toString (n : Nat) : signedOf? (toString n) = some n := by
  have hlist : (toString n).toList = Nat.toDigits 10 n := Nat.toList_repr
  rw [signedOf?, hlist]
  split
  -- no digit is a sign
  · next ds heq =>
    have hdigit := isDigit_of_mem_toDigits (n := n) (c := '-') (by simp [heq])
    exact absurd hdigit (by decide)
  · next ds heq =>
    have hdigit := isDigit_of_mem_toDigits (n := n) (c := '+') (by simp [heq])
    exact absurd hdigit (by decide)
  · rw [natOf?_toDigits]
    rfl

/-- In 64 bits, if it fits. -/
theorem int64Of?_toString {n : Nat} (h : n < 2 ^ 63) :
    int64Of? (toString n) = some (Int64.ofInt n) := by
  have hmin : Int64.minValue.toInt = -9223372036854775808 := rfl
  have hmax : Int64.maxValue.toInt = 9223372036854775807 := rfl
  rw [int64Of?, signedOf?_toString]
  change (if _ then _ else _) = _
  rw [if_pos]
  simp only [hmin, hmax, Bool.and_eq_true, decide_eq_true_eq]
  omega

/-- The sign of a negative number is read as well. -/
theorem signedOf?_toString_int (n : Int) : signedOf? (toString n) = some n := by
  cases n with
  | ofNat n => exact signedOf?_toString n
  | negSucc n =>
    -- a minus sign in front of the numeral of the absolute value
    have hlist : (toString (Int.negSucc n)).toList = '-' :: Nat.toDigits 10 (n + 1) := by
      change ("-" ++ Nat.repr (n + 1)).toList = _
      rw [String.toList_append, Nat.toList_repr]
      rfl
    simp only [signedOf?, hlist, natOf?_toDigits]
    rfl

/-- **In 64 bits** with a sign every number is read back. -/
theorem int64Of?_toInt (n : Int64) : int64Of? (toString n.toInt) = some n := by
  have hle := n.le_toInt
  have hlt := n.toInt_lt
  have hmin : Int64.minValue.toInt = -9223372036854775808 := rfl
  have hmax : Int64.maxValue.toInt = 9223372036854775807 := rfl
  rw [int64Of?, signedOf?_toString_int]
  change (if _ then _ else _) = _
  -- what was a number of 64 bits lies in their range
  rw [if_pos, Int64.ofInt_toInt]
  simp only [hmin, hmax, Bool.and_eq_true, decide_eq_true_eq]
  omega

end EventCatalog.Text
