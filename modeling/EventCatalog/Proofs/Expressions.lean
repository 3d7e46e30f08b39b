import EventCatalog.Pattern.Glob
import EventCatalog.Proofs.LowerCase

/-!
# What expressions accept

An expression is read from its first atom on: a run of characters takes a piece without line feeds away, and a
literal takes itself (`Regex.accepts_anyStar_cons`, `Regex.accepts_literal_append`). So the expression for texts
that contain a pattern accepts those in which the pattern has no line feed before or behind it
(`Regex.accepts_containing`), and that for texts that begin with one those without a line feed behind it
(`Regex.accepts_startingWith`). In a text of one line this is no restriction.
-/

namespace EventCatalog

/-- A pattern stands in a text with no line feed before or behind it. -/
def Glob.StandsIn (p s : List Char) : Prop :=
  ∃ before after, s = before ++ p ++ after ∧ '\n' ∉ before ∧ '\n' ∉ after

/-- **A piece stands so** if it has all the line feeds of the text. -/
theorem Glob.standsIn_iff {p s : List Char} : StandsIn p s ↔ p <:+: s ∧ p.count '\n' = s.count '\n' := by
  constructor
  · rintro ⟨before, after, rfl, hbefore, hafter⟩
    refine ⟨⟨before, after, rfl⟩, ?_⟩
    rw [List.count_append, List.count_append, List.count_eq_zero.2 hbefore, List.count_eq_zero.2 hafter,
      Nat.zero_add, Nat.add_zero]
  · rintro ⟨⟨before, after, rfl⟩, hcount⟩
    -- no line feed of the text is left for the two sides
    rw [List.count_append, List.count_append] at hcount
    exact ⟨before, after, rfl, List.count_eq_zero.1 (by omega), List.count_eq_zero.1 (by omega)⟩

namespace Regex

variable {r : Regex} {p s : List Char}

/-- A run of characters takes a piece without line feeds. -/
theorem accepts_anyStar_cons : accepts (.anyStar :: r) s = true ↔
    ∃ before after, s = before ++ after ∧ '\n' ∉ before ∧ accepts r after = true := by
  induction s with
  | nil =>
    rw [accepts, Bool.or_false]
    constructor
    -- in an empty text the run takes nothing
    · exact fun h => ⟨[], [], rfl, List.not_mem_nil, h⟩
    · rintro ⟨before, after, heq, -, h⟩
      rwa [(List.append_eq_nil_iff.1 heq.symm).2] at h
  | cons c s ih =>
    rw [accepts, Bool.or_eq_true, Bool.and_eq_true, ih, isAny, bne_iff_ne]
    constructor
    -- the run ends here, or takes one more character
    · rintro (h | ⟨hc, before, after, rfl, hbefore, h⟩)
      · exact ⟨[], c :: s, rfl, List.not_mem_nil, h⟩
      · exact ⟨c :: before, after, rfl, List.not_mem_cons_of_ne_of_not_mem hc.symm hbefore, h⟩
    · rintro ⟨before, after, heq, hbefore, h⟩
      cases before with
      | nil =>
        rw [List.nil_append] at heq
        exact .inl (heq ▸ h)
      | cons b before =>
        obtain ⟨rfl, rfl⟩ := List.cons.inj heq
        exact .inr ⟨(List.ne_of_not_mem_cons hbefore).symm, before, after, rfl,
          List.not_mem_of_not_mem_cons hbefore, h⟩

/-- A literal takes itself. -/
theorem accepts_literal_append :
    accepts (literal p ++ r) s = true ↔ ∃ after, s = p ++ after ∧ accepts r after = true := by
  induction p generalizing s with
  | nil => simp [literal]
  | cons c p ih =>
    have hcons : literal (c :: p) ++ r = .char c :: (literal p ++ r) := rfl
    rw [hcons, accepts.eq_def]
    cases s with
    | nil => simp
    | cons d s =>
      simp only [Bool.and_eq_true, beq_iff_eq, ih, List.cons_append, List.cons.injEq]
      constructor
      · rintro ⟨rfl, after, rfl, h⟩
        exact ⟨after, ⟨rfl, rfl⟩, h⟩
      · rintro ⟨after, ⟨rfl, rfl⟩, h⟩
        exact ⟨rfl, after, rfl, h⟩

/-- Any run of characters is a text without line feeds. -/
theorem accepts_anyStar : accepts [.anyStar] s = true ↔ '\n' ∉ s := by
  rw [accepts_anyStar_cons]
  constructor
  · rintro ⟨before, after, rfl, hbefore, h⟩
    rw [accepts, List.isEmpty_iff] at h
    rwa [h, List.append_nil]
  · exact fun h => ⟨s, [], (List.append_nil s).symm, h, by rw [accepts]; rfl⟩

/-- The expression that accepts the texts that begin with a text. -/
def startingWith (p : List Char) : Regex := literal p ++ [.anyStar]

/-- **Beginning with a text** is having no line feed behind it. -/
theorem accepts_startingWith :
    accepts (startingWith p) s = true ↔ ∃ after, s = p ++ after ∧ '\n' ∉ after := by
  rw [startingWith, accepts_literal_append]
  simp only [accepts_anyStar]

/-- **Containing a pattern** is having it with no line feed before or behind it. -/
theorem accepts_containing : accepts (containing p) s = true ↔ Glob.StandsIn p s := by
  -- one run in front of the pattern, and one behind it
  have hcons : containing p = .anyStar :: startingWith p := rfl
  rw [hcons, accepts_anyStar_cons, Glob.StandsIn]
  simp only [accepts_startingWith]
  constructor
  · rintro ⟨before, -, rfl, hbefore, after, rfl, hafter⟩
    exact ⟨before, after, (List.append_assoc before p after).symm, hbefore, hafter⟩
  · rintro ⟨before, after, rfl, hbefore, hafter⟩
    exact ⟨before, p ++ after, List.append_assoc before p after, hbefore, after, rfl, hafter⟩

end Regex

namespace Glob

variable {p : List Char}

instance (p s : List Char) : Decidable (StandsIn p s) :=
  decidable_of_iff (Regex.test (Regex.containing p) s = true)
    (by rw [Regex.test_eq_accepts, Regex.accepts_containing])

theorem toRegex_append (p s : List Char) : toRegex (p ++ s) = toRegex p ++ toRegex s := List.map_append

/-- A text without wildcards stands for itself. -/
theorem toRegex_of_plain (h : hasWildcard p = false) : toRegex p = Regex.literal p := by
  refine List.map_congr_left fun c hc => ?_
  have hplain := List.any_eq_false.1 h c hc
  simp only [Bool.or_eq_true, beq_iff_eq, not_or] at hplain
  rw [atom, if_neg hplain.1, if_neg hplain.2]

/-- A star behind a text stands for what comes behind it. -/
theorem toRegex_append_star (h : hasWildcard p = false) : toRegex (p ++ ['*']) = Regex.startingWith p := by
  rw [toRegex_append, toRegex_of_plain h]
  rfl

/-- A text between two stars is what is to be contained. -/
theorem toRegex_starred (h : hasWildcard p = false) : toRegex ('*' :: p ++ ['*']) = Regex.containing p := by
  rw [List.cons_append, ← List.singleton_append, toRegex_append, toRegex_append_star h]
  rfl

end Glob

end EventCatalog
