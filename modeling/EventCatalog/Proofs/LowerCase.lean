import EventCatalog.Pattern.Glob
import EventCatalog.Proofs.Numerals

/-!
# What lower case leaves as it is

Small letters stay as they are, whether each character is looked at by itself or with the others of a text
(`Text.lowerChar_of_mem`, `Text.lowerChar_of_mem_lowerAfter`), so lower case need not be applied twice.
Blanks, wildcards and slashes have no case at all: lower case neither changes them nor makes them of
something else (`Text.IsCaseless`). So it keeps the words of a text apart, and a pattern in lower case has a
wildcard if it has one as it is written (`Glob.hasWildcard_normalize`).

All this rests on a look at the table of capitals (`Text.isSound_caseRuns`): where the small letters of a
run of capitals come near another run, each of them is looked at.
-/

namespace EventCatalog

namespace Text

/-! ### The table of capitals -/

namespace CaseRun

/-- Whether a code point is that of one of the capitals. -/
def holds (r : CaseRun) (n : Nat) : Bool := r.first ≤ n && n ≤ r.last && (n - r.first) % r.step == 0

/-- The code points of the small letters. -/
def targets (r : CaseRun) : List Nat :=
  (List.range ((r.last - r.first) / r.step + 1)).map fun k =>
    ((r.first + k * r.step : Nat) + r.shift).toNat

/-- The first of the small letters. -/
def bottom (r : CaseRun) : Nat := (r.first + r.shift).toNat

/-- The last of the small letters. -/
def top (r : CaseRun) : Nat := (r.last + r.shift).toNat

/-- The runs that the small letters come near. -/
def near (r : CaseRun) : List CaseRun :=
  caseRuns.toList.filter fun t => t.first.ble r.top && r.bottom.ble t.last

/-- No small letter of the run is a capital, and neither the capitals nor the small letters are blanks or
lie where other characters with a case are. -/
def isSound (r : CaseRun) : Bool :=
  r.first.ble r.last && Nat.ble 0x80 r.first && Nat.ble 0x61 r.bottom &&
    (r.top.blt 0xD800 || Nat.blt 0xDFFF r.bottom && r.top.blt 0x110000) &&
    (r.top.blt 0x130 || Nat.blt 0x130 r.bottom) &&
    (blankRanges.toList.all fun b => r.top.blt b.1 || b.2.blt r.bottom) &&
    (blankRanges.toList.all fun b => r.last.blt b.1 || b.2.blt r.first) &&
    r.near.all fun t => r.targets.all fun n => !t.holds n

variable {r : CaseRun} {n : Nat}

/-- The small letters lie between the first and the last of them. -/
theorem bounds_of_mem_targets (hrun : r.first ≤ r.last) (h : n ∈ r.targets) :
    r.bottom ≤ n ∧ n ≤ r.top := by
  obtain ⟨k, hk, rfl⟩ := List.mem_map.1 h
  have hsteps : k * r.step ≤ r.last - r.first := by
    have hk : k ≤ (r.last - r.first) / r.step := Nat.lt_succ_iff.1 (List.mem_range.1 hk)
    exact Nat.le_trans (Nat.mul_le_mul_right _ hk) (Nat.div_mul_le_self _ _)
  unfold bottom top
  omega

/-- The small letter of a capital. -/
theorem mem_targets_of_holds (h : r.holds n = true) : (n + r.shift).toNat ∈ r.targets := by
  simp only [holds, Bool.and_eq_true, decide_eq_true_eq, beq_iff_eq] at h
  obtain ⟨⟨hfirst, hlast⟩, hstep⟩ := h
  have hmul : (n - r.first) / r.step * r.step = n - r.first :=
    Nat.div_mul_cancel (Nat.dvd_of_mod_eq_zero hstep)
  refine List.mem_map.2 ⟨(n - r.first) / r.step, List.mem_range.2 (Nat.lt_succ_of_le ?_), ?_⟩
  · exact Nat.div_le_div_right (Nat.sub_le_sub_right hlast _)
  · rw [hmul, Nat.add_sub_cancel' hfirst]

end CaseRun

theorem isSound_caseRuns : caseRuns.toList.all CaseRun.isSound = true := by decide +kernel

/-! ### Small letters -/

/-- A code point that no table knows but as that of a small letter. -/
structure IsSmall (n : Nat) : Prop where
  least : 0x61 ≤ n
  ne_dotted : n ≠ 0x130
  notBlank : inRanges blankRanges n = false
  notCapital : ∀ r ∈ caseRuns.toList, r.holds n = false

instance (n : Nat) : Decidable (IsSmall n) :=
  -- all tables are gone through by Boolean tests, which the kernel runs at once
  decidable_of_iff ((Nat.ble 0x61 n && n != 0x130 && !(blankRanges.toList.any fun r => r.1 ≤ n && n ≤ r.2) &&
      caseRuns.toList.all fun r => !r.holds n) = true)
    ⟨fun h => by
      simp only [Bool.and_eq_true, Nat.ble_eq, bne_iff_ne, Bool.not_eq_true', List.all_eq_true] at h
      obtain ⟨⟨⟨hleast, hdotted⟩, hblank⟩, hcapital⟩ := h
      exact ⟨hleast, hdotted, by rw [inRanges, ← Array.any_toList, hblank], hcapital⟩,
    fun h => by
      have hblank := h.notBlank
      rw [inRanges, ← Array.any_toList] at hblank
      simp only [Bool.and_eq_true, Nat.ble_eq, bne_iff_ne, Bool.not_eq_true', List.all_eq_true]
      exact ⟨⟨⟨h.least, h.ne_dotted⟩, hblank⟩, h.notCapital⟩⟩

/-- **The small letters of capitals** are small letters, and characters. -/
theorem CaseRun.isSmall_of_mem_targets {r : CaseRun} (hr : r ∈ caseRuns.toList) {n : Nat}
    (hn : n ∈ r.targets) : IsSmall n ∧ n.isValidChar := by
  have hsound := List.all_eq_true.1 isSound_caseRuns r hr
  simp only [isSound, Bool.and_eq_true, Bool.or_eq_true, List.all_eq_true, Nat.ble_eq, Nat.blt_eq,
    Bool.not_eq_true'] at hsound
  obtain ⟨⟨⟨⟨⟨⟨⟨hrun, -⟩, hleast⟩, hvalid⟩, hdotted⟩, hblank⟩, -⟩, hnear⟩ := hsound
  obtain ⟨hbottom, htop⟩ := bounds_of_mem_targets hrun hn
  refine ⟨⟨by omega, by omega, ?_, fun t ht => ?_⟩, by unfold Nat.isValidChar; omega⟩
  · rw [inRanges, ← Array.any_toList, List.any_eq_false]
    intro b hb hin
    rw [Bool.and_eq_true, decide_eq_true_eq, decide_eq_true_eq] at hin
    have := hblank b hb
    omega
  -- a run that holds it is one that the small letters come near
  · cases hholds : t.holds n with
    | false => rfl
    | true =>
      have hin := hholds
      simp only [holds, Bool.and_eq_true, decide_eq_true_eq] at hin
      have hmem : t ∈ r.near := by
        refine List.mem_filter.2 ⟨ht, ?_⟩
        rw [Bool.and_eq_true, Nat.ble_eq, Nat.ble_eq]
        omega
      exact hholds.symm.trans (hnear t hmem n hn)

/-- What is no capital stays as it is. -/
theorem lowerChar_eq_self {c : Char} (hascii : ¬ (0x41 ≤ c.toNat ∧ c.toNat ≤ 0x5A))
    (hdotted : c.toNat ≠ 0x130) (hruns : ∀ r ∈ caseRuns.toList, r.holds c.toNat = false) :
    lowerChar c = [c] := by
  have hcapital : ¬ (c.val ≥ 'A'.val ∧ c.val ≤ 'Z'.val) := hascii
  unfold lowerChar
  split
  · exact congrArg (fun d => [d]) (dif_neg hcapital)
  split
  · next r hr =>
    -- a run that is found would hold the character
    rw [← Array.find?_toList] at hr
    have hholds := List.find?_some (p := fun r : CaseRun => r.holds c.toNat) hr
    exact nomatch (hruns r (List.mem_of_find?_eq_some hr)).symm.trans hholds
  · rfl

theorem IsSmall.lowerChar_eq {c : Char} (h : IsSmall c.toNat) : lowerChar c = [c] := by
  have hleast := h.least
  exact lowerChar_eq_self (by omega) h.ne_dotted h.notCapital

/-- The small letters of a capital sigma, in a word and at its end. -/
theorem isSmall_sigmas : lowerChar 'Σ' = ['σ'] ∧ IsSmall 'σ'.toNat ∧ IsSmall 'ς'.toNat := by decide +kernel

theorem lowerChar_sigma : lowerChar 'Σ' = ['σ'] := isSmall_sigmas.1

theorem toNat_ofNat {n : Nat} (h : n.isValidChar) : (Char.ofNat n).toNat = n := by
  rw [Char.ofNat, dif_pos h]
  rfl

/-- **Lower case** leaves a character as it is, or makes small letters of it. -/
theorem lowerChar_eq_self_or (c : Char) : lowerChar c = [c] ∨ ∀ d ∈ lowerChar c, IsSmall d.toNat := by
  unfold lowerChar
  split
  -- an ASCII capital becomes a letter of ASCII
  · have hascii : ∀ n < 0x7B, 0x61 ≤ n → IsSmall n := by decide +kernel
    by_cases hcapital : c.val ≥ 'A'.val ∧ c.val ≤ 'Z'.val
    · have hlower : c.toLower.toNat = (c.toNat + 32) % 2 ^ 32 := congrArg Char.toNat (dif_pos hcapital)
      obtain ⟨hfirst, hlast⟩ : 0x41 ≤ c.toNat ∧ c.toNat ≤ 0x5A := hcapital
      refine .inr fun d hd => ?_
      rw [List.mem_singleton.1 hd]
      exact hascii _ (by omega) (by omega)
    · exact .inl (congrArg (fun d => [d]) (dif_neg hcapital))
  split
  · refine .inr fun d hd => ?_
    -- the dotted capital becomes a small letter and a dot of its own
    rcases List.mem_cons.1 hd with rfl | hd
    · decide +kernel
    · rw [List.mem_singleton.1 hd]
      decide +kernel
  split
  · next r hr =>
    rw [← Array.find?_toList] at hr
    have hholds := List.find?_some (p := fun r : CaseRun => r.holds c.toNat) hr
    have hmem := CaseRun.mem_targets_of_holds hholds
    obtain ⟨hsmall, hvalid⟩ := CaseRun.isSmall_of_mem_targets (List.mem_of_find?_eq_some hr) hmem
    refine .inr fun d hd => ?_
    rw [List.mem_singleton.1 hd, toNat_ofNat hvalid]
    exact hsmall
  · exact .inl rfl

/-- A small letter of a character stays as it is. -/
theorem lowerChar_of_mem {c d : Char} (h : d ∈ lowerChar c) : lowerChar d = [d] := by
  rcases lowerChar_eq_self_or c with hself | hsmall
  · rw [hself, List.mem_singleton] at h
    rw [h, hself]
  · exact (hsmall d h).lowerChar_eq

/-! ### Characters without a case -/

/-- Lower case neither changes the character nor makes it of another. -/
structure IsCaseless (c : Char) : Prop where
  mem_lowerChar : ∀ b, c ∈ lowerChar b ↔ b = c
  ne_final : c ≠ 'ς'

theorem isCaseless_of_not_isSmall {c : Char} (hself : lowerChar c = [c]) (h : ¬ IsSmall c.toNat) :
    IsCaseless c where
  mem_lowerChar := by
    intro b
    constructor
    · intro hmem
      rcases lowerChar_eq_self_or b with hb | hb
      · rw [hb, List.mem_singleton] at hmem
        exact hmem.symm
      · exact absurd (hb c hmem) h
    · rintro rfl
      rw [hself]
      exact List.mem_singleton_self b
  ne_final := by
    rintro rfl
    exact h isSmall_sigmas.2.2

/-- The first characters of ASCII have no case. -/
theorem isCaseless_of_lt {c : Char} (h : c.toNat < 0x41) : IsCaseless c := by
  refine isCaseless_of_not_isSmall (lowerChar_eq_self (by omega) (by omega) fun r hr => ?_)
    fun hsmall => absurd hsmall.least (by omega)
  have hsound := List.all_eq_true.1 isSound_caseRuns r hr
  simp only [CaseRun.isSound, Bool.and_eq_true, Nat.ble_eq] at hsound
  obtain ⟨⟨⟨⟨⟨⟨⟨-, hfirst⟩, -⟩, -⟩, -⟩, -⟩, -⟩, -⟩ := hsound
  rw [CaseRun.holds, decide_eq_false (by omega)]
  rfl

/-- Blanks have no case. -/
theorem isCaseless_of_isBlank {c : Char} (h : isBlank c = true) : IsCaseless c := by
  have hnot : ¬ IsSmall c.toNat := fun hsmall => nomatch h.symm.trans hsmall.notBlank
  rw [isBlank, inRanges, ← Array.any_toList, List.any_eq_true] at h
  obtain ⟨b, hb, hin⟩ := h
  simp only [Bool.and_eq_true, decide_eq_true_eq] at hin
  -- blanks lie apart from the capitals of ASCII and the dotted one, which stand in no run
  have hbounds : ∀ b ∈ blankRanges.toList,
      (b.2 < 0x41 ∨ 0x5A < b.1) ∧ (b.2 < 0x130 ∨ 0x130 < b.1) := by decide
  obtain ⟨hascii, hdotted⟩ := hbounds b hb
  refine isCaseless_of_not_isSmall (lowerChar_eq_self (by omega) (by omega) fun r hr => ?_) hnot
  have hsound := List.all_eq_true.1 isSound_caseRuns r hr
  simp only [CaseRun.isSound, Bool.and_eq_true, Bool.or_eq_true, List.all_eq_true, Nat.blt_eq] at hsound
  obtain ⟨⟨⟨⟨⟨⟨⟨-, -⟩, -⟩, -⟩, -⟩, -⟩, hapart⟩, -⟩ := hsound
  have hapart := hapart b hb
  cases hholds : r.holds c.toNat with
  | false => rfl
  | true =>
    simp only [CaseRun.holds, Bool.and_eq_true, decide_eq_true_eq] at hholds
    omega

/-- What is a blank in lower case is one. -/
theorem isBlank_of_mem_lowerChar {c d : Char} (h : d ∈ lowerChar c) : isBlank d = isBlank c := by
  cases hd : isBlank d with
  | true =>
    rw [← ((isCaseless_of_isBlank hd).mem_lowerChar c).1 h] at hd
    exact hd.symm
  | false =>
    cases hc : isBlank c with
    | false => rfl
    | true =>
      -- a blank is left as it is, so nothing but a blank could come of it
      have hself := lowerChar_of_mem (((isCaseless_of_isBlank hc).mem_lowerChar c).2 rfl)
      rw [hself, List.mem_singleton] at h
      exact (h ▸ hd).symm.trans hc

/-! ### Texts -/

variable {before s : List Char} {c d : Char}

/-- Each character of a text in lower case comes from one of the text, or is the final sigma. -/
theorem exists_of_mem_lowerAfter (h : d ∈ lowerAfter before s) :
    (∃ c ∈ s, d ∈ lowerChar c) ∨ d = 'ς' := by
  induction s generalizing before with
  | nil => exact nomatch h
  | cons c rest ih =>
    rw [lowerAfter, List.mem_append] at h
    rcases h with h | h
    · split at h
      -- only a sigma is looked at with what stands around it
      · next hc =>
        split at h
        · exact .inr (List.mem_singleton.1 h)
        · exact .inl ⟨c, List.mem_cons_self, by rwa [hc, lowerChar_sigma]⟩
      · exact .inl ⟨c, List.mem_cons_self, h⟩
    · rcases ih h with ⟨b, hb, hd⟩ | hd
      · exact .inl ⟨b, List.mem_cons_of_mem c hb, hd⟩
      · exact .inr hd

/-- A character of a text in lower case stays as it is. -/
theorem lowerChar_of_mem_lowerAfter (h : d ∈ lowerAfter before s) : lowerChar d = [d] := by
  rcases exists_of_mem_lowerAfter h with ⟨c, -, hd⟩ | rfl
  · exact lowerChar_of_mem hd
  · exact isSmall_sigmas.2.2.lowerChar_eq

theorem IsCaseless.mem_lowerAfter (hc : IsCaseless c) : c ∈ lowerAfter before s ↔ c ∈ s := by
  constructor
  · intro h
    rcases exists_of_mem_lowerAfter h with ⟨b, hb, hmem⟩ | hfinal
    · rwa [← (hc.mem_lowerChar b).1 hmem]
    · exact absurd hfinal hc.ne_final
  · intro h
    induction s generalizing before with
    | nil => exact nomatch h
    | cons b rest ih =>
      rw [lowerAfter, List.mem_append]
      rcases List.mem_cons.1 h with rfl | h
      -- a capital sigma has a case
      · have hne : c ≠ 'Σ' := by
          rintro rfl
          exact absurd ((hc.mem_lowerChar 'Σ').2 rfl) (by rw [lowerChar_sigma]; decide)
        rw [if_neg hne]
        exact .inl ((hc.mem_lowerChar c).2 rfl)
      · exact .inr (ih h)

/-- In lower case a text has a character without a case as often as it has it as it is written. -/
theorem IsCaseless.count_lowerAfter (hc : IsCaseless c) : (lowerAfter before s).count c = s.count c := by
  induction s generalizing before with
  | nil => rfl
  | cons b rest ih =>
    rw [lowerAfter, List.count_append, ih]
    by_cases hb : b = c
    -- the character itself is left as it is
    · subst hb
      have hself : lowerChar b = [b] := lowerChar_of_mem ((hc.mem_lowerChar b).2 rfl)
      have hne : b ≠ 'Σ' := by
        rintro rfl
        exact absurd (lowerChar_sigma.symm.trans hself) (by decide)
      rw [if_neg hne, hself, List.count_cons_self, List.count_cons_self, List.count_nil, Nat.add_comm]
    -- and none of the others becomes that character
    · rw [List.count_cons_of_ne hb, Nat.add_eq_right, List.count_eq_zero]
      intro hmem
      split at hmem
      · next hsigma =>
        subst hsigma
        split at hmem
        · exact hc.ne_final (List.mem_singleton.1 hmem)
        · refine hb ((hc.mem_lowerChar 'Σ').1 ?_)
          rwa [lowerChar_sigma]
      · exact hb ((hc.mem_lowerChar b).1 hmem)

/-- What is in lower case stays so, character by character. -/
theorem lowerEach_eq_self (h : ∀ c ∈ s, lowerChar c = [c]) : lowerEach s = s := by
  unfold lowerEach
  induction s with
  | nil => rfl
  | cons c rest ih =>
    rw [List.flatMap_cons, h c List.mem_cons_self, ih fun b hb => h b (List.mem_cons_of_mem c hb)]
    rfl

theorem mem_trimStart (hc : isBlank c = false) : c ∈ trimStart s ↔ c ∈ s := by
  unfold trimStart
  induction s with
  | nil => exact Iff.rfl
  | cons b rest ih =>
    rw [List.dropWhile_cons]
    split
    · next hb =>
      rw [ih, List.mem_cons, or_iff_right]
      rintro rfl
      exact nomatch hc.symm.trans hb
    · exact Iff.rfl

/-- Trimming leaves the characters that are not blank. -/
theorem mem_trim (hc : isBlank c = false) : c ∈ trim s ↔ c ∈ s := by
  rw [trim, List.mem_reverse, mem_trimStart hc, List.mem_reverse, mem_trimStart hc]

end Text

namespace Glob

/-- A pattern as it is matched stays so in lower case. -/
theorem lowerChar_of_mem_normalize {pattern : String} {c : Char} (h : c ∈ normalize pattern) :
    Text.lowerChar c = [c] := by
  rw [normalize, Text.lower, String.toList_ofList] at h
  exact Text.lowerChar_of_mem_lowerAfter h

/-- Texts with the same visible characters of those that have no case have the same wildcards. -/
theorem hasWildcard_congr {s t : List Char}
    (h : ∀ c, Text.IsCaseless c → Text.isBlank c = false → (c ∈ s ↔ c ∈ t)) : hasWildcard s = hasWildcard t := by
  have hany : ∀ l : List Char, hasWildcard l = true ↔ '*' ∈ l ∨ '?' ∈ l := by
    intro l
    simp only [hasWildcard, List.any_eq_true, Bool.or_eq_true, beq_iff_eq]
    constructor
    · rintro ⟨c, hc, rfl | rfl⟩
      · exact .inl hc
      · exact .inr hc
    · rintro (h | h)
      · exact ⟨'*', h, .inl rfl⟩
      · exact ⟨'?', h, .inr rfl⟩
  rw [Bool.eq_iff_iff, hany, hany,
    h '*' (Text.isCaseless_of_lt (by decide)) (Text.isBlank_of_visible (by decide) (by decide)),
    h '?' (Text.isCaseless_of_lt (by decide)) (Text.isBlank_of_visible (by decide) (by decide))]

/-- **A pattern has the wildcards with which it is written.** -/
theorem hasWildcard_normalize (pattern : String) :
    hasWildcard (normalize pattern) = hasWildcard pattern.toList := by
  refine hasWildcard_congr fun c hc hblank => ?_
  rw [normalize, Text.lower, String.toList_ofList, String.toList_ofList, hc.mem_lowerAfter, Text.mem_trim hblank]

end Glob

end EventCatalog
