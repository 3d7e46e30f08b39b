/-!
# Texts in the order of their bytes

Texts are compared character by character. In UTF-8 that is the order of their bytes
(`Text.bytes_lt_iff`): of two characters the lesser one has the lesser bytes, at the first place where
they differ, whatever stands behind them (`Text.utf8EncodeChar_append_lt`). So neither an encoding that
is longer nor one that begins another upsets the order.
-/

namespace EventCatalog.Text

/-- The bytes of a text in UTF-8. -/
def bytes (s : String) : List UInt8 := s.toUTF8.data.toList

theorem bytes_eq_flatMap (s : String) : bytes s = s.toList.flatMap String.utf8EncodeChar := by
  rw [bytes, String.toUTF8_eq_toByteArray, ← String.utf8Encode_toList, List.utf8Encode,
    List.data_toByteArray]

/-- Of two bytes that are in order, the rest matters only if they are the same. -/
private theorem cons_lt {m n : Nat} {x y : List UInt8} (h : m ≤ n) (hn : n < 256)
    (hrest : m = n → x < y) : UInt8.ofNat m :: x < UInt8.ofNat n :: y := by
  rw [List.cons_lt_cons_iff]
  rcases Nat.lt_or_eq_of_le h with hlt | heq
  · left
    rw [UInt8.lt_iff_toNat_lt, UInt8.toNat_ofNat', UInt8.toNat_ofNat']
    omega
  · exact .inr ⟨by rw [heq], hrest heq⟩

/-- **The order of characters is that of their bytes**, whatever stands behind them. -/
theorem utf8EncodeChar_append_lt {c d : Char} (h : c < d) (x y : List UInt8) :
    String.utf8EncodeChar c ++ x < String.utf8EncodeChar d ++ y := by
  have hcd : c.val.toNat < d.val.toNat := h
  have hd : d.val.toNat < 0x110000 := by
    have := d.valid
    simp only [UInt32.isValidChar, Nat.isValidChar] at this
    omega
  unfold String.utf8EncodeChar
  simp only
  generalize c.val.toNat = m at *
  generalize d.val.toNat = n at *
  -- every byte but the first is a digit to the base 64
  have hm₁ : m / 4096 = m / 64 / 64 := by omega
  have hn₁ : n / 4096 = n / 64 / 64 := by omega
  have hm₂ : m / 262144 = m / 64 / 64 / 64 := by omega
  have hn₂ : n / 262144 = n / 64 / 64 / 64 := by omega
  rw [hm₁, hm₂, hn₁, hn₂]
  -- first bytes of longer encodings are greater, so only those of equal lengths go on
  by_cases h₁ : n ≤ 0x7f
  · rw [if_pos (by omega), if_pos h₁]
    exact cons_lt (by omega) (by omega) fun _ => by omega
  · rw [if_neg h₁]
    by_cases h₂ : n ≤ 0x7ff
    · rw [if_pos h₂]
      split
      · exact cons_lt (by omega) (by omega) fun _ => by omega
      · rw [if_pos (by omega)]
        refine cons_lt (by omega) (by omega) fun _ => ?_
        exact cons_lt (by omega) (by omega) fun _ => by omega
    · rw [if_neg h₂]
      by_cases h₃ : n ≤ 0xffff
      · rw [if_pos h₃]
        split
        · exact cons_lt (by omega) (by omega) fun _ => by omega
        · split
          · exact cons_lt (by omega) (by omega) fun _ => by omega
          · rw [if_pos (by omega)]
            refine cons_lt (by omega) (by omega) fun _ => ?_
            refine cons_lt (by omega) (by omega) fun _ => ?_
            exact cons_lt (by omega) (by omega) fun _ => by omega
      · rw [if_neg h₃]
        split
        · exact cons_lt (by omega) (by omega) fun _ => by omega
        · split
          · exact cons_lt (by omega) (by omega) fun _ => by omega
          · split
            · exact cons_lt (by omega) (by omega) fun _ => by omega
            · refine cons_lt (by omega) (by omega) fun _ => ?_
              refine cons_lt (by omega) (by omega) fun _ => ?_
              refine cons_lt (by omega) (by omega) fun _ => ?_
              exact cons_lt (by omega) (by omega) fun _ => by omega

/-- The induction is on the first text; where the characters agree, so do their bytes. -/
private theorem flatMap_lt_flatMap {s t : List Char} (h : s < t) :
    s.flatMap String.utf8EncodeChar < t.flatMap String.utf8EncodeChar := by
  induction s generalizing t with
  | nil =>
    cases t with
    | nil => exact absurd h (List.lt_irrefl _)
    | cons d t =>
      rw [List.flatMap_nil, List.flatMap_cons]
      cases hd : String.utf8EncodeChar d with
      | nil => exact absurd hd String.utf8EncodeChar_ne_nil
      | cons b bs => exact List.nil_lt_cons _ _
  | cons c s ih =>
    cases t with
    | nil => exact absurd h (List.not_lt_nil _)
    | cons d t =>
      rw [List.flatMap_cons, List.flatMap_cons]
      -- the first characters decide, or they are the same and so are their bytes
      rcases List.cons_lt_cons_iff.1 h with hlt | ⟨rfl, hlt⟩
      · exact utf8EncodeChar_append_lt hlt _ _
      · exact List.append_left_lt (ih hlt)

/-- **Texts are in the order of their bytes.** -/
theorem bytes_lt_iff (s t : String) : bytes s < bytes t ↔ s < t := by
  have hmono : ∀ {s t : String}, s < t → bytes s < bytes t := by
    intro s t h
    rw [bytes_eq_flatMap, bytes_eq_flatMap]
    exact flatMap_lt_flatMap (String.lt_iff.1 h)
  constructor
  · intro h
    by_cases hst : s < t
    · exact hst
    · -- otherwise the texts are equal or the other way round
      by_cases hts : t < s
      · exact absurd h (List.lt_asymm (hmono hts))
      · obtain rfl : s = t := String.le_antisymm (String.not_lt.1 hts) (String.not_lt.1 hst)
        exact absurd h (List.lt_irrefl _)
  · exact hmono

end EventCatalog.Text
