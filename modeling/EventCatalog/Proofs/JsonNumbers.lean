import Mathlib.Data.List.Induction
import EventCatalog.Proofs.JsonText

/-!
# Whole numbers have one numeral

A number is read from its numeral (`number_append`). Here is the way back: a text that is read to its end as
a whole number is the numeral of that number (`number_eq_int_iff`). It has no zeros in front, no plus sign,
neither fraction nor exponent; all of these are either refused or read as floating point, as are the negative
zero and what does not fit into 64 bits.

Every way through the reader ends in `wholeNumber` or in a floating-point number (`OnlyReal`), so only the way
that takes nothing but digits is left.
-/

namespace EventCatalog.Json

variable {negative : Bool} {n m : Nat} {e : Int} {s r : List Char} {v : Json}

/-! ### What is read as floating point -/

/-- If a number is read at all, it is a floating-point number. -/
private def OnlyReal (o : Option (Json × List Char)) : Prop := ∀ v r, o = some (v, r) → ∃ x, v = .real x

namespace OnlyReal

private theorem none : OnlyReal none := fun _ _ h => absurd h (by simp)

private theorem real {x : Float} : OnlyReal (some (.real x, r)) :=
  fun _ _ h => ⟨x, (Prod.mk.inj (Option.some.inj h)).1.symm⟩

private theorem ite {c : Prop} [Decidable c] {a b : Option (Json × List Char)} (ha : OnlyReal a)
    (hb : OnlyReal b) : OnlyReal (if c then a else b) := by
  split
  · exact ha
  · exact hb

private theorem map_realOf : OnlyReal ((realOf negative m e).map fun v => (v, r)) := by
  intro v r h
  obtain ⟨w, hw, heq⟩ := Option.map_eq_some_iff.1 h
  obtain ⟨rfl, -⟩ := Prod.mk.inj heq
  obtain ⟨x, -, rfl⟩ := Option.map_eq_some_iff.1 hw
  exact ⟨_, rfl⟩

private theorem exponent : OnlyReal (exponent negative m e s) := by
  unfold Json.exponent
  exact .ite .none (.ite .map_realOf (.ite .none .real))

private theorem finish : OnlyReal (finish negative m e s) := by
  unfold Json.finish
  split
  · exact .exponent
  · exact .exponent
  · exact .map_realOf

private theorem fraction : OnlyReal (fraction negative m e s) := by
  unfold Json.fraction
  exact .ite .none .finish

end OnlyReal

/-! ### Digits -/

/-- The digits that are taken, with what they leave. -/
private theorem exists_takeDigits (n : Nat) (s : List Char) : ∃ ds, (∀ c ∈ ds, c.isDigit = true) ∧
    s = ds ++ (takeDigits n s).2.2 ∧ (takeDigits n s).1 = Nat.ofDigitChars 10 ds n := by
  induction s generalizing n with
  | nil => exact ⟨[], by simp, rfl, rfl⟩
  | cons c s ih =>
    rw [takeDigits]
    split
    · next hc =>
      simp only
      split
      -- the digit joins those behind it, with ten times the value before it
      · obtain ⟨ds, hds, hs, hm⟩ := ih (10 * n + (c.toNat - '0'.toNat))
        refine ⟨c :: ds, ?_, ?_, ?_⟩
        · intro d hd
          rcases List.mem_cons.1 hd with rfl | hd
          · exact hc
          · exact hds d hd
        · rw [List.cons_append, ← hs]
        · rw [Nat.ofDigitChars_cons, ← hm]
      · exact ⟨[], by simp, rfl, rfl⟩
    · exact ⟨[], by simp, rfl, rfl⟩

/-- A digit is written as the digit of its value. -/
private theorem digitChar_of_isDigit {c : Char} (h : c.isDigit = true) : (c.toNat - '0'.toNat).digitChar = c := by
  obtain ⟨hl, hg⟩ := Text.toNat_of_isDigit h
  have hzero : '0'.toNat = 48 := rfl
  refine Char.toNat_inj.1 ?_
  rw [Nat.toNat_digitChar_of_lt_ten (by omega)]
  omega

/-- Digits without a zero in front are the numeral of their value, which is positive. -/
private theorem toDigits_ofDigitChars {c : Char} {ds : List Char} (hzero : c ≠ '0')
    (hd : ∀ d ∈ c :: ds, d.isDigit = true) :
    0 < Nat.ofDigitChars 10 (c :: ds) 0 ∧ Nat.toDigits 10 (Nat.ofDigitChars 10 (c :: ds) 0) = c :: ds := by
  -- the last digit is the unit's place, so the induction goes from the end
  induction ds using List.reverseRecOn with
  | nil =>
    have hc := hd c (by simp)
    obtain ⟨hl, hg⟩ := Text.toNat_of_isDigit hc
    have h48 : '0'.toNat = 48 := rfl
    have hne : c.toNat ≠ 48 := fun h => hzero (Char.toNat_inj.1 h)
    rw [Nat.ofDigitChars_cons, Nat.mul_zero, Nat.zero_add, Nat.ofDigitChars_nil]
    refine ⟨by omega, ?_⟩
    rw [Nat.toDigits_of_lt_base (by omega), digitChar_of_isDigit hc]
  | append_singleton ds d ih =>
    obtain ⟨hpos, heq⟩ := ih fun x hx => hd x (by
      rcases List.mem_cons.1 hx with rfl | hx
      · simp
      · simp [hx])
    have hdigit := hd d (by simp)
    obtain ⟨hl, hg⟩ := Text.toNat_of_isDigit hdigit
    have h48 : '0'.toNat = 48 := rfl
    rw [← List.cons_append, Nat.ofDigitChars_append, Nat.ofDigitChars_cons, Nat.ofDigitChars_nil]
    refine ⟨by omega, ?_⟩
    rw [← Nat.toDigits_append_toDigits (by decide) hpos (by omega), heq,
      Nat.toDigits_of_lt_base (by omega), digitChar_of_isDigit hdigit]

/-! ### Whole numbers -/

/-- Behind the digits stands what makes the number a floating-point number, or the number is whole. -/
private theorem tail_cases (h : (match s with
      | '.' :: r => fraction negative n 0 r
      | 'e' :: _ | 'E' :: _ => finish negative n 0 s
      | _ => some (wholeNumber negative n, s)) = some (v, r)) :
    (∃ x, v = .real x) ∨ (s = r ∧ v = wholeNumber negative n) := by
  split at h
  -- a fraction or an exponent makes it a floating-point number
  · exact .inl (OnlyReal.fraction _ _ h)
  · exact .inl (OnlyReal.finish _ _ h)
  · exact .inl (OnlyReal.finish _ _ h)
  · obtain ⟨hv, hs⟩ := Prod.mk.inj (Option.some.inj h)
    exact .inr ⟨hs, hv.symm⟩

/-- Without its sign a number is a floating-point number or has a numeral. -/
private theorem unsignedNumber_cases (h : unsignedNumber negative s = some (v, r)) :
    (∃ x, v = .real x) ∨ ∃ n, s = Nat.toDigits 10 n ++ r ∧ v = wholeNumber negative n := by
  rw [unsignedNumber.eq_def] at h
  split at h
  · -- a zero has no digits behind it
    next rest =>
    have hread : (∃ x, v = .real x) ∨ (rest = r ∧ v = wholeNumber negative 0) := by
      split at h
      · split at h
        · exact absurd h (by simp)
        · exact tail_cases h
      · exact tail_cases (s := []) h
    refine hread.imp_right ?_
    rintro ⟨rfl, hv⟩
    exact ⟨0, rfl, hv⟩
  · next c rest hzero =>
    split at h
    · next hc =>
      obtain ⟨ds, hds, hs, hn⟩ := exists_takeDigits (c.toNat - '0'.toNat) rest
      simp only at h
      split at h
      · -- all digits fit
        refine (tail_cases h).imp_right ?_
        rintro ⟨hrest, hv⟩
        have hvalue : Nat.ofDigitChars 10 (c :: ds) 0 = (takeDigits (c.toNat - '0'.toNat) rest).1 := by
          rw [Nat.ofDigitChars_cons, Nat.mul_zero, Nat.zero_add, hn]
        have hwritten := (toDigits_ofDigitChars hzero (List.forall_mem_cons.2 ⟨hc, hds⟩)).2
        exact ⟨_, by rw [← hvalue, hwritten, List.cons_append, ← hrest, ← hs], hv⟩
      · -- what does not fit is rounded
        split at h
        · exact .inl (OnlyReal.fraction _ _ h)
        · exact .inl (OnlyReal.finish _ _ h)
    · exact absurd h (by simp)
  · exact absurd h (by simp)

/-- **What is read as a number** is a floating-point number, or a whole number from its numeral. -/
theorem number_cases (h : number s = some (v, r)) :
    (∃ x, v = .real x) ∨ ∃ k, v = .int k ∧ s = renderInt k ++ r := by
  rw [number.eq_def] at h
  split at h
  -- behind a minus sign zero and what is too large are floating-point numbers
  · refine (unsignedNumber_cases h).elim .inl ?_
    rintro ⟨n, hs, hv⟩
    rw [wholeNumber, Bool.not_true, if_neg Bool.false_ne_true] at hv
    split at hv
    · exact .inl ⟨_, hv⟩
    · -- zero has no minus sign, so the number is below it
      next hsmall =>
      have hpos : n ≠ 0 := fun hzero => hsmall (by simp [hzero])
      refine .inr ⟨_, hv, ?_⟩
      rw [hs, renderInt, if_pos (by omega), Int.natAbs_neg, Int.natAbs_natCast, List.cons_append]
  · refine (unsignedNumber_cases h).imp_right ?_
    rintro ⟨n, hs, hv⟩
    refine ⟨n, hv, ?_⟩
    rw [hs, renderInt, if_neg (by omega), Int.natAbs_natCast]

/-- **A whole number has one numeral.** -/
theorem number_eq_int_iff {k : Int} (hl : -9223372036854775808 ≤ k) (hg : k ≤ 18446744073709551615) :
    number s = some (.int k, []) ↔ s = renderInt k := by
  constructor
  · intro h
    rcases number_cases h with ⟨x, hx⟩ | ⟨k', hk, hs⟩
    · exact Json.noConfusion hx
    · rw [hs, List.append_nil, Json.int.inj hk]
  · rintro rfl
    have hread := number_append hl hg .nil
    rwa [List.append_nil] at hread

end EventCatalog.Json
