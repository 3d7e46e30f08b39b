import Mathlib.Data.List.TakeWhile
import EventCatalog.Proofs.LowerCase

/-!
# Where a capital sigma ends a word

A text is put in lower case character by character, or as a whole, and then a capital sigma with a letter before
it and none behind it takes the final form (`Text.TakesFinalSigma`). The two ways agree if and only if no capital
sigma does so (`Text.lowerAfter_eq_lowerEach_iff`), and always lead to the same length.

A blank neither has a case nor is passed over in looking for a letter with one, so that the search ends there
(`Text.IsBreak`). So what is in front of a blank and what is behind it are put in lower case each by itself
(`Text.lowerAfter_append`, `Text.lowerAfter_append_left`).
-/

namespace EventCatalog

namespace Text

variable {before s t : List Char} {c : Char}

/-! ### Blanks in lower case -/

/-- Whether two tables of code points have none in common. -/
def areApart (l m : Array Range) : Bool :=
  l.toList.all fun a => m.toList.all fun b => a.2.blt b.1 || b.2.blt a.1

theorem inRanges_eq_false {l m : Array Range} (h : areApart l m = true) {n : Nat}
    (hn : inRanges l n = true) : inRanges m n = false := by
  rw [inRanges, ← Array.any_toList, List.any_eq_true] at hn
  obtain ⟨a, ha, hin⟩ := hn
  rw [inRanges, ← Array.any_toList, List.any_eq_false]
  intro b hb hin'
  have hapart := List.all_eq_true.1 (List.all_eq_true.1 h a ha) b hb
  simp only [Bool.and_eq_true, decide_eq_true_eq, Bool.or_eq_true, Nat.blt_eq] at hin hin' hapart
  omega

/-- A character at which the search for a cased letter ends without one: it is no such letter, and is not
passed over. -/
structure IsBreak (c : Char) : Prop where
  notIgnorable : isCaseIgnorable c = false
  notCased : isCased c = false

theorem isBreak_of_isBlank (h : isBlank c = true) : IsBreak c where
  notIgnorable := inRanges_eq_false (by decide +kernel) h
  notCased := inRanges_eq_false (by decide +kernel) h

theorem IsBreak.nearestIsCased_cons (h : IsBreak c) (s : List Char) : nearestIsCased (c :: s) = false := by
  rw [nearestIsCased, h.notIgnorable, h.notCased]
  rfl

/-- What is behind a break does not matter for the nearest letter. -/
theorem nearestIsCased_append (s : List Char) (ht : ∀ c ∈ t.head?, IsBreak c) :
    nearestIsCased (s ++ t) = nearestIsCased s := by
  induction s with
  | nil =>
    cases t with
    | nil => rfl
    -- the search gets as far as the break, and ends there without a letter
    | cons c rest => exact (ht c rfl).nearestIsCased_cons rest
  | cons c s ih => rw [List.cons_append, nearestIsCased, nearestIsCased, ih]

/-- Where a break follows, a text is put in lower case by itself. -/
theorem lowerAfter_append (before s : List Char) (ht : ∀ c ∈ t.head?, IsBreak c) :
    lowerAfter before (s ++ t) = lowerAfter before s ++ lowerAfter (s.reverse ++ before) t := by
  induction s generalizing before with
  | nil => rfl
  | cons c s ih =>
    rw [List.cons_append, lowerAfter, lowerAfter, nearestIsCased_append s ht, ih, List.reverse_cons,
      List.append_assoc, List.append_assoc, List.singleton_append]

/-- Behind a break, a text is put in lower case as if it began there. -/
theorem lowerAfter_append_left (hbefore : ∀ c ∈ before.head?, IsBreak c) (near s : List Char) :
    lowerAfter (near ++ before) s = lowerAfter near s := by
  induction s generalizing near with
  | nil => rfl
  | cons c s ih =>
    rw [lowerAfter, lowerAfter, nearestIsCased_append near hbefore, ← List.cons_append, ih]

/-- What is in lower case stays so, as a whole too. -/
theorem lowerAfter_eq_self (h : ∀ c ∈ s, lowerChar c = [c]) : lowerAfter before s = s := by
  induction s generalizing before with
  | nil => rfl
  | cons c s ih =>
    -- a capital sigma does not stay as it is
    have hne : c ≠ 'Σ' := by
      rintro rfl
      exact absurd (lowerChar_sigma.symm.trans (h 'Σ' List.mem_cons_self)) (by decide)
    rw [lowerAfter, if_neg hne, h c List.mem_cons_self, ih fun b hb => h b (List.mem_cons_of_mem c hb)]
    rfl

/-- A blank stays as it is. -/
theorem lowerAfter_cons_of_isBlank (h : isBlank c = true) (before s : List Char) :
    lowerAfter before (c :: s) = c :: lowerAfter (c :: before) s := by
  -- a blank alone is in lower case already, whatever stands before it
  have hself : lowerAfter before [c] = [c] := by
    refine lowerAfter_eq_self fun b hb => ?_
    rw [List.mem_singleton.1 hb]
    exact lowerChar_of_mem (((isCaseless_of_isBlank h).mem_lowerChar c).2 rfl)
  rw [lowerAfter, lowerAfter, List.append_nil] at hself
  -- only for a sigma would it matter what stands behind
  have hne : c ≠ 'Σ' := by
    rintro rfl
    have hsmall : 'σ' ∈ lowerChar 'Σ' := by
      rw [lowerChar_sigma]
      exact List.mem_singleton_self _
    rw [← isBlank_of_mem_lowerChar hsmall, isBlank, isSmall_sigmas.2.1.notBlank] at h
    exact Bool.noConfusion h
  rw [if_neg hne] at hself
  rw [lowerAfter, if_neg hne, hself]
  rfl

/-- A text has blanks in lower case where it has them as it is written. -/
theorem isBlank_of_mem_lowerAfter {d : Char} (hs : ∀ c ∈ s, isBlank c = false)
    (h : d ∈ lowerAfter before s) : isBlank d = false := by
  rcases exists_of_mem_lowerAfter h with ⟨c, hc, hd⟩ | rfl
  · rw [isBlank_of_mem_lowerChar hd, hs c hc]
  · exact isSmall_sigmas.2.2.notBlank

/-- Blanks around a text stay as they are, and it is put in lower case as if they were not there. -/
theorem lowerAfter_between {front back : List Char} (hfront : ∀ c ∈ front, isBlank c = true)
    (hback : ∀ c ∈ back, isBlank c = true) (s : List Char) :
    lowerAfter [] (front ++ s ++ back) = front ++ lowerAfter [] s ++ back := by
  have hself : ∀ before, lowerAfter before back = back := fun before => lowerAfter_eq_self fun c hc =>
    lowerChar_of_mem (((isCaseless_of_isBlank (hback c hc)).mem_lowerChar c).2 rfl)
  -- the blanks in front go over to what stands before the text,
  have hleft : ∀ before, lowerAfter before (front ++ s) = front ++ lowerAfter (front.reverse ++ before) s := by
    induction front with
    | nil => exact fun before => rfl
    | cons c front ih =>
      intro before
      rw [List.cons_append, lowerAfter_cons_of_isBlank (hfront c List.mem_cons_self),
        ih fun b hb => hfront b (List.mem_cons_of_mem c hb), List.reverse_cons, List.append_assoc]
      rfl
  -- where they end the search for a letter as the beginning of a text does
  have hcontext : lowerAfter (front.reverse ++ []) s = lowerAfter [] s := by
    rw [List.append_nil]
    refine lowerAfter_append_left (fun c hc => isBreak_of_isBlank ?_) [] s
    exact hfront c (List.mem_reverse.1 (List.mem_of_mem_head? hc))
  have hbreak : ∀ c ∈ back.head?, IsBreak c := fun c hc =>
    isBreak_of_isBlank (hback c (List.mem_of_mem_head? hc))
  rw [lowerAfter_append [] (front ++ s) hbreak, hself, hleft, hcontext]

/-- Trimming takes blanks away in front and behind. -/
theorem exists_trim (s : List Char) : ∃ front back, (∀ c ∈ front, isBlank c = true) ∧
    (∀ c ∈ back, isBlank c = true) ∧ s = front ++ trim s ++ back := by
  have hblank : ∀ s : List Char, ∀ c ∈ s.takeWhile isBlank, isBlank c = true :=
    fun s c hc => List.mem_takeWhile_imp hc
  refine ⟨s.takeWhile isBlank, ((trimStart s).reverse.takeWhile isBlank).reverse, hblank s,
    fun c hc => hblank _ c (List.mem_reverse.1 hc), ?_⟩
  -- trimming behind is trimming the reversed text in front
  have hback := congrArg List.reverse
    (List.takeWhile_append_dropWhile (p := isBlank) (l := (trimStart s).reverse))
  rw [List.reverse_append, List.reverse_reverse] at hback
  rw [List.append_assoc, trim, trimStart, hback]
  exact List.takeWhile_append_dropWhile.symm

/-! ### The final sigma -/

/-- A capital sigma of the text becomes a final one: there is a letter before it and none behind it. -/
def TakesFinalSigma (s : List Char) : Prop :=
  ∃ front back, s = front ++ 'Σ' :: back ∧ nearestIsCased front.reverse = true ∧ nearestIsCased back = false

/-- Lower case makes no text shorter. -/
theorem length_le_lowerEach (s : List Char) : s.length ≤ (lowerEach s).length := by
  induction s with
  | nil => exact Nat.le_refl 0
  | cons c s ih =>
    have hpos : 0 < (lowerChar c).length := by
      unfold lowerChar
      split
      · exact Nat.one_pos
      split
      · exact Nat.two_pos
      split <;> exact Nat.one_pos
    have hcons : lowerEach (c :: s) = lowerChar c ++ lowerEach s := rfl
    rw [hcons, List.length_append, List.length_cons]
    omega

/-- The lower case of a text has the same length, put so as a whole or character by character. -/
theorem length_lowerAfter (before s : List Char) : (lowerAfter before s).length = (lowerEach s).length := by
  induction s generalizing before with
  | nil => rfl
  | cons c s ih =>
    -- either small sigma is one character
    have hfirst : (if c = 'Σ' then
        if nearestIsCased before && !nearestIsCased s then ['ς'] else ['σ'] else lowerChar c).length =
        (lowerChar c).length := by
      split
      · next hc =>
        rw [hc, lowerChar_sigma]
        split <;> rfl
      · rfl
    rw [lowerAfter, List.length_append, hfirst, ih]
    exact (List.length_append).symm

theorem lowerAfter_ne_nil (h : s ≠ []) : lowerAfter before s ≠ [] := by
  rw [← List.length_pos_iff, length_lowerAfter]
  exact Nat.lt_of_lt_of_le (List.length_pos_iff.2 h) (length_le_lowerEach s)

theorem lowerAfter_eq_lowerEach_iff_forall :
    lowerAfter before s = lowerEach s ↔ ∀ front back, s = front ++ 'Σ' :: back →
      nearestIsCased (front.reverse ++ before) = true → nearestIsCased back = true := by
  induction s generalizing before with
  | nil => exact iff_of_true rfl fun front back h => absurd h.symm (by simp)
  | cons c s ih =>
    have hcons : lowerEach (c :: s) = lowerChar c ++ lowerEach s := rfl
    -- at the first character the two ways differ only in a sigma with a letter before it and none behind it
    have hfirst : (if c = 'Σ' then
        if nearestIsCased before && !nearestIsCased s then ['ς'] else ['σ'] else lowerChar c) =
        lowerChar c ↔ (c = 'Σ' → nearestIsCased before = true → nearestIsCased s = true) := by
      split
      · next hc =>
        rw [hc, lowerChar_sigma]
        cases nearestIsCased before <;> cases nearestIsCased s <;> decide
      · next hc => exact iff_of_true rfl fun h => absurd h hc
    have hlength := length_lowerAfter (c :: before) s
    rw [lowerAfter, hcons]
    constructor
    · intro heq front back hsplit
      -- the rests are of one length, so equal texts are equal piece by piece
      obtain ⟨h, hrest⟩ := List.append_inj' heq hlength
      cases front with
      | nil =>
        obtain ⟨rfl, rfl⟩ := List.cons.inj hsplit
        exact hfirst.1 h rfl
      | cons b front =>
        obtain ⟨rfl, rfl⟩ := List.cons.inj hsplit
        rw [List.reverse_cons, List.append_assoc]
        exact ih.1 hrest front back rfl
    · intro h
      rw [hfirst.2 fun hc => h [] s (by rw [hc]; rfl), ih.2 fun front back hsplit => ?_]
      have := h (c :: front) back (by rw [hsplit]; rfl)
      rwa [List.reverse_cons, List.append_assoc] at this

/-- **The two ways of putting a text in lower case** agree if none of its capital sigmas becomes a final one. -/
theorem lowerAfter_eq_lowerEach_iff : lowerAfter [] s = lowerEach s ↔ ¬ TakesFinalSigma s := by
  rw [lowerAfter_eq_lowerEach_iff_forall]
  simp only [TakesFinalSigma, List.append_nil, not_exists, not_and, Bool.not_eq_false]

/-- A text without capital sigmas is one of those. -/
theorem not_takesFinalSigma (h : 'Σ' ∉ s) : ¬ TakesFinalSigma s := by
  rintro ⟨front, back, rfl, -⟩
  exact h (List.mem_append_right _ List.mem_cons_self)

end Text

/-- Something is left of a pattern that is not blank. -/
theorem Glob.normalize_ne_nil {pattern : String} (h : ∃ c ∈ pattern.toList, Text.isBlank c = false) :
    normalize pattern ≠ [] := by
  obtain ⟨c, hc, hblank⟩ := h
  rw [normalize, Text.lower, String.toList_ofList, String.toList_ofList]
  exact Text.lowerAfter_ne_nil (List.ne_nil_of_mem ((Text.mem_trim hblank).2 hc))

end EventCatalog
