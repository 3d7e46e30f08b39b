import Mathlib.Data.List.Basic
import Mathlib.Data.List.Pairwise
import Mathlib.Data.List.TakeWhile
import EventCatalog.Analysis.Grams
import EventCatalog.Proofs.LowerCase

/-!
# The grams of a text

The stream of grams gives, one at a time, the grams that `Grams.describe` names all at once
(`grams_eq_describe`). What is still to come of a stream is said by `GramStream.ahead`, from which each
step takes the first gram (`GramStream.ahead_of_advance`).

For searching, only the characters and the positions of the grams matter. They are those of the words of
the text in lower case, each of which is placed at a position of its own (`Grams.place`). Between the
places of two words there is a gap, so grams at positions that follow each other are of one word, and
what they spell out is a piece of it (`Grams.phrase_iff`). A piece of the lower-cased text without blanks is
a piece of a word (`Grams.infix_lowerEach_iff`). Taken together, a word is spelled out by the grams of a text
if and only if the lower-cased text contains it (`Grams.spelled_iff`).
-/

namespace EventCatalog.Analysis

open Text (isBlank lowerChar lowerEach trimStart)

/-! ### Runs of characters -/

namespace Grams

variable {c : Char} {s : List Char}

/-- A run that has begun goes on up to the next blank. -/
theorem runs_of_ne_nil {run : List Char} (hrun : run ≠ []) (offset : Nat) (s : List Char) :
    runs offset run s =
      (offset - byteLength run, run.reverse ++ s.takeWhile fun c => !isBlank c) ::
        runs (offset + byteLength (s.takeWhile fun c => !isBlank c)) [] (s.dropWhile fun c => !isBlank c) := by
  have hempty : run.isEmpty = false := List.isEmpty_eq_false_iff.2 hrun
  induction s generalizing offset run with
  | nil => simp only [runs, hempty, List.takeWhile_nil, List.dropWhile_nil, List.append_nil]; rfl
  | cons c rest ih =>
    rw [runs, List.takeWhile_cons, List.dropWhile_cons]
    cases hc : isBlank c with
    | true =>
      simp only [hempty, Bool.not_true, Bool.false_eq_true, if_true, if_false, List.append_nil,
        byteLength_nil, Nat.add_zero, List.singleton_append]
      rw [runs, hc]
      rfl
    | false =>
      simp only [Bool.not_false, Bool.false_eq_true, if_true, if_false]
      -- the character joins the run, whose beginning stays where it was
      rw [ih (List.cons_ne_nil c run) _ rfl, byteLength_cons, byteLength_cons, List.reverse_cons,
        List.append_assoc, List.singleton_append, Nat.add_assoc, Nat.add_comm offset,
        Nat.add_sub_add_left]

/-- The first run of a text that begins with it. -/
theorem runs_cons (hc : isBlank c = false) (offset : Nat) (rest : List Char) :
    runs offset [] (c :: rest) =
      (offset, (c :: rest).takeWhile fun c => !isBlank c) ::
        runs (offset + byteLength ((c :: rest).takeWhile fun c => !isBlank c)) []
          ((c :: rest).dropWhile fun c => !isBlank c) := by
  rw [runs, hc, if_neg Bool.false_ne_true, runs_of_ne_nil (List.cons_ne_nil c []),
    List.takeWhile_cons_of_pos (by rw [hc]; rfl), List.dropWhile_cons_of_pos (by rw [hc]; rfl)]
  simp only [byteLength_cons, byteLength_nil, Nat.add_zero, Nat.add_sub_cancel, Nat.add_assoc]
  rfl

/-- Blanks in front belong to no run. -/
theorem runs_trimStart (offset : Nat) (s : List Char) :
    runs offset [] s = runs (offset + byteLength (s.takeWhile isBlank)) [] (trimStart s) := by
  unfold trimStart
  induction s generalizing offset with
  | nil => rfl
  | cons c rest ih =>
    cases hc : isBlank c with
    | true =>
      rw [List.takeWhile_cons_of_pos hc, List.dropWhile_cons_of_pos hc, byteLength_cons, ← Nat.add_assoc,
        ← ih, runs, if_pos hc]
      rfl
    | false =>
      rw [List.takeWhile_cons_of_neg (by rw [hc]; nofun), List.dropWhile_cons_of_neg (by rw [hc]; nofun)]
      rfl

/-- Behind its blanks a text begins with what is none. -/
theorem isBlank_of_trimStart {rest : List Char} (h : trimStart s = c :: rest) : isBlank c = false := by
  have hhead := List.head?_dropWhile_not isBlank s
  rw [← trimStart, h] at hhead
  exact hhead

end Grams

/-! ### The stream -/

namespace GramStream

variable {s t : GramStream}

/-- The position behind the grams of the current word. -/
def behind (s : GramStream) : Nat :=
  let grams := Grams.windows s.position s.word
  if grams.isEmpty && !s.begun then s.position else s.position + grams.length + 1

/-- The grams that are still to come, said without steps: those of the current word, and those of the runs
that are unread. -/
def ahead (s : GramStream) : List Token :=
  Grams.windows s.position s.word ++
    Grams.number s.behind ((Grams.runs s.offset [] s.unread).map fun r => letters r.1 r.2)

/-- Where the current word has no gram, what is to come are the grams of the next one and those behind. -/
theorem ahead_of_nextWord (hword : Grams.windows s.position s.word = []) (h : s.nextWord = some t) :
    s.ahead = t.ahead := by
  unfold nextWord at h
  dsimp only at h
  split at h
  · exact nomatch h
  · next hne =>
    obtain rfl := Option.some.inj h
    -- the unread text begins, behind its blanks, with the next word
    cases hrest : trimStart s.unread with
    | nil =>
      rw [hrest] at hne
      exact absurd rfl hne
    | cons c rest =>
      unfold ahead behind
      rw [hword, Grams.runs_trimStart, hrest, Grams.runs_cons (Grams.isBlank_of_trimStart hrest),
        List.map_cons, Grams.number]
      cases s.begun <;> simp

/-- Without a next word nothing is to come. -/
theorem ahead_of_nextWord_eq_none (hword : Grams.windows s.position s.word = []) (h : s.nextWord = none) :
    s.ahead = [] := by
  unfold nextWord at h
  dsimp only at h
  split at h
  · next hempty =>
    cases hrest : trimStart s.unread with
    | nil =>
      unfold ahead
      rw [hword, Grams.runs_trimStart, hrest]
      rfl
    | cons c rest =>
      rw [hrest, List.takeWhile_cons_of_pos (by rw [Grams.isBlank_of_trimStart hrest]; rfl)] at hempty
      exact nomatch hempty
  · exact nomatch h

/-- A word that is too short for a gram has none. -/
theorem windows_eq_nil (position : Nat) {word : List Letter}
    (hword : ∀ a b c rest, word = a :: b :: c :: rest → False) : Grams.windows position word = [] := by
  unfold Grams.windows
  split
  · next a b c rest => exact (hword a b c rest rfl).elim
  · rfl

/-- **One step of the stream** takes the first of the grams that are to come, if there are any. -/
theorem ahead_of_advance (s : GramStream) :
    (∀ g, s.advance.1 = some g → s.ahead = g :: s.advance.2.ahead) ∧
      (s.advance.1 = none → s.ahead = []) := by
  fun_induction advance s with
  | case1 s a b c rest hword =>
    refine ⟨fun g hg => ?_, fun hnone => absurd hnone (Option.some_ne_none _)⟩
    obtain rfl := Option.some.inj hg
    unfold ahead behind
    simp only [hword, Grams.windows, List.isEmpty_cons, Bool.false_and, Bool.not_true, Bool.and_false,
      Bool.false_eq_true, if_false, List.length_cons, List.cons_append]
    -- the position behind the word is the same, counted from the second gram on
    rw [Nat.add_right_comm s.position 1, ← Nat.add_assoc s.position]
  | case2 s u hnext hword ih =>
    rwa [ahead_of_nextWord (windows_eq_nil s.position hword) hnext]
  | case3 s hnext hword =>
    exact ⟨fun g hg => absurd hg.symm (Option.some_ne_none g),
      fun _ => ahead_of_nextWord_eq_none (windows_eq_nil s.position hword) hnext⟩

/-- **The stream gives what is to come of it.** -/
theorem toList_eq_ahead (s : GramStream) : s.toList = s.ahead := by
  fun_induction toList s with
  | case1 s g t hadvance ih =>
    have hstep := s.ahead_of_advance.1
    rw [hadvance] at hstep
    rw [hstep g rfl, ih]
  | case2 s t hadvance =>
    have hstep := s.ahead_of_advance.2
    rw [hadvance] at hstep
    rw [hstep rfl]

end GramStream

/-- **The grams of a text** are those of its runs. -/
theorem grams_eq_describe (s : List Char) : grams s = Grams.describe s := by
  rw [grams, GramStream.toList_eq_ahead]
  rfl

/-! ### Characters and positions -/

namespace Grams

/-- The windows of three characters, numbered from `position` on. -/
def shingles (position : Nat) : List Char → List (Nat × List Char)
  | a :: b :: c :: rest => (position, [a, b, c]) :: shingles (position + 1) (b :: c :: rest)
  | _ => []

/-- The words that have grams, with the positions of their first grams. -/
def place (position : Nat) : List (List Char) → List (Nat × List Char)
  | [] => []
  | word :: rest =>
    if word.length < gramSize then place position rest
    else (position, word) :: place (position + (word.length - 2) + 1) rest

/-- The words of a text in lower case. -/
def words (s : List Char) : List (List Char) := (runs 0 [] s).map fun r => lowerEach r.2

/-- The grams of words, with their positions. -/
def spelled (words : List (List Char)) : List (Nat × List Char) :=
  (place 0 words).flatMap fun p => shingles p.1 p.2

theorem map_char_letters (offset : Nat) (s : List Char) :
    (letters offset s).map Letter.char = lowerEach s := by
  induction s generalizing offset with
  | nil => rfl
  | cons c rest ih =>
    rw [letters, List.map_append, ih, List.map_map]
    exact congrArg (· ++ lowerEach rest) (List.map_id _)

theorem map_windows (position : Nat) (word : List Letter) :
    (windows position word).map (fun t => (t.position, t.text)) =
      shingles position (word.map Letter.char) := by
  match word with
  | [] => rfl
  | [_] => rfl
  | [_, _] => rfl
  | a :: b :: c :: rest =>
    rw [windows, List.map_cons, map_windows (position + 1) (b :: c :: rest)]
    rfl

/-- The first gram of a word that is long enough. -/
theorem exists_shingles_eq_cons (position : Nat) {word : List Char} (h : gramSize ≤ word.length) :
    ∃ g rest, shingles position word = (position, g) :: rest := by
  match word, h with
  | a :: b :: c :: rest, _ => exact ⟨[a, b, c], shingles (position + 1) (b :: c :: rest), rfl⟩

/-- Numbered from further on, the windows are the same. -/
theorem shingles_add (p position : Nat) (word : List Char) :
    shingles (p + position) word = (shingles position word).map fun g => (p + g.1, g.2) := by
  fun_induction shingles position word with
  | case1 position a b c rest ih =>
    rw [shingles, Nat.add_assoc, ih]
    rfl
  | case2 word position hword =>
    match word with
    | [] => rfl
    | [_] => rfl
    | [_, _] => rfl
    | a :: b :: c :: rest => exact (hword a b c rest rfl).elim

theorem length_shingles (position : Nat) (word : List Char) :
    (shingles position word).length = word.length - 2 := by
  match word with
  | [] => rfl
  | [_] => rfl
  | [_, _] => rfl
  | a :: b :: c :: rest =>
    rw [shingles, List.length_cons, length_shingles (position + 1) (b :: c :: rest)]
    rfl

theorem length_windows (position : Nat) (word : List Letter) :
    (windows position word).length = word.length - 2 := by
  have hlength := congrArg List.length (map_windows position word)
  rwa [List.length_map, length_shingles, List.length_map] at hlength

/-- Numbering the grams of words places the words. -/
theorem map_number (position : Nat) (words : List (List Letter)) :
    (number position words).map (fun t => (t.position, t.text)) =
      (place position (words.map (List.map Letter.char))).flatMap fun p => shingles p.1 p.2 := by
  induction words generalizing position with
  | nil => rfl
  | cons word rest ih =>
    have hlength := length_windows position word
    rw [number, List.map_append, map_windows, ih, List.map_cons, place, List.length_map]
    unfold gramSize
    by_cases hshort : word.length < 3
    -- a word that is too short has no grams and takes no position
    · have hnil : windows position word = [] := by
        rw [← List.length_eq_zero_iff, hlength]
        omega
      rw [if_pos hshort, ← map_windows, hnil]
      rfl
    · have hsome : (windows position word).isEmpty = false := by
        rw [List.isEmpty_eq_false_iff, ← List.length_pos_iff, hlength]
        omega
      rw [if_neg hshort, hsome, hlength]
      rfl

/-- **The grams of a text spell its words.** -/
theorem map_grams (s : List Char) :
    (grams s).map (fun t => (t.position, t.text)) = spelled (words s) := by
  rw [grams_eq_describe, describe, map_number, List.map_map]
  unfold spelled words
  simp only [Function.comp_def, map_char_letters]

/-! ### Words that are spelled out -/

variable {position p : Nat} {word q : List Char} {g : List Char}

theorem shingles_cons (position : Nat) (c : Char) {word : List Char} (hword : 2 ≤ word.length) :
    shingles position (c :: word) = (position, c :: word.take 2) :: shingles (position + 1) word := by
  match word, hword with
  | _ :: _ :: _, _ => rfl

/-- A gram of a word stands in it, as far from its beginning as its position says. -/
theorem mem_shingles : (p, g) ∈ shingles position word ↔
    g.length = gramSize ∧ ∃ before after, word = before ++ g ++ after ∧ p = position + before.length := by
  unfold gramSize
  constructor
  · intro h
    fun_induction shingles position word with
    | case1 position a b c rest ih =>
      rcases List.mem_cons.1 h with heq | h
      · obtain ⟨rfl, rfl⟩ := Prod.mk.inj heq
        exact ⟨rfl, [], rest, rfl, rfl⟩
      · obtain ⟨hg, before, after, hword, rfl⟩ := ih h
        refine ⟨hg, a :: before, after, by rw [hword]; rfl, ?_⟩
        rw [List.length_cons, Nat.add_assoc, Nat.add_comm 1]
    | case2 => exact nomatch h
  · rintro ⟨hg, before, after, rfl, rfl⟩
    induction before generalizing position with
    | nil =>
      -- right at the beginning it is the first gram
      obtain ⟨x, y, z, rfl⟩ := List.length_eq_three.1 hg
      exact List.mem_cons_self
    | cons c before ih =>
      rw [List.cons_append, List.cons_append, shingles_cons, List.length_cons, ← Nat.add_assoc,
        Nat.add_right_comm]
      · exact List.mem_cons_of_mem _ ih
      · rw [List.length_append, List.length_append]
        omega

/-- A placed word ends before the place of the next. -/
theorem pairwise_place (position : Nat) (words : List (List Char)) :
    (∀ a ∈ place position words, position ≤ a.1) ∧
      (place position words).Pairwise fun a b => a.1 + (a.2.length - 2) < b.1 := by
  induction words generalizing position with
  | nil => exact ⟨nofun, .nil⟩
  | cons word rest ih =>
    rw [place]
    split
    -- a word without grams takes no place
    · exact ih position
    · obtain ⟨hle, hapart⟩ := ih (position + (word.length - 2) + 1)
      refine ⟨fun a ha => ?_, List.pairwise_cons.2 ⟨fun b hb => Nat.lt_of_succ_le (hle b hb), hapart⟩⟩
      rcases List.mem_cons.1 ha with rfl | ha
      · exact Nat.le_refl _
      · exact Nat.le_trans (by omega) (hle a ha)

/-- The words that are placed are those that have grams. -/
theorem exists_mem_place (position : Nat) (words : List (List Char)) (word : List Char) :
    (∃ p, (p, word) ∈ place position words) ↔ word ∈ words ∧ gramSize ≤ word.length := by
  induction words generalizing position with
  | nil => exact iff_of_false (fun ⟨_, h⟩ => nomatch h) (fun h => nomatch h.1)
  | cons w rest ih =>
    rw [place]
    split
    · next hshort =>
      rw [ih, List.mem_cons]
      constructor
      · rintro ⟨hmem, hlength⟩
        exact ⟨.inr hmem, hlength⟩
      · rintro ⟨rfl | hmem, hlength⟩
        · omega
        · exact ⟨hmem, hlength⟩
    · next hlong =>
      simp only [List.mem_cons, Prod.mk.injEq, exists_or, exists_eq_left, ih]
      constructor
      · rintro (rfl | ⟨hmem, hlength⟩)
        · exact ⟨.inl rfl, Nat.le_of_not_lt hlong⟩
        · exact ⟨.inr hmem, hlength⟩
      · rintro ⟨rfl | hmem, hlength⟩
        · exact .inl rfl
        · exact .inr ⟨hmem, hlength⟩

theorem mem_spelled {words : List (List Char)} {x : Nat × List Char} :
    x ∈ spelled words ↔ ∃ b w, (b, w) ∈ place 0 words ∧ x ∈ shingles b w := by
  unfold spelled
  rw [List.mem_flatMap, Prod.exists]

/-- Two placed words neither of which lies behind the other are one and the same. -/
theorem eq_of_near {words : List (List Char)} {b b' : Nat} {w w' : List Char}
    (h : (b, w) ∈ place 0 words) (h' : (b', w') ∈ place 0 words)
    (hle : b ≤ b' + (w'.length - 2)) (hle' : b' ≤ b + (w.length - 2)) : (b, w) = (b', w') := by
  have hapart := List.pairwise_iff_getElem.1 (pairwise_place 0 words).2
  obtain ⟨i, hi, hword⟩ := List.getElem_of_mem h
  obtain ⟨j, hj, hword'⟩ := List.getElem_of_mem h'
  -- between two words there is a gap
  rcases Nat.lt_trichotomy i j with hlt | rfl | hlt
  · have hgap := hapart i j hi hj hlt
    rw [hword, hword'] at hgap
    exact absurd hle' (Nat.not_le.2 hgap)
  · exact hword.symm.trans hword'
  · have hgap := hapart j i hj hi hlt
    rw [hword, hword'] at hgap
    exact absurd hle (Nat.not_le.2 hgap)

/-- Two words with grams at positions that follow each other are one and the same. -/
theorem eq_of_mem_place {words : List (List Char)} {b b' : Nat} {w w' : List Char} {g g' : List Char}
    (h : (b, w) ∈ place 0 words) (h' : (b', w') ∈ place 0 words) (hg : (p, g) ∈ shingles b w)
    (hg' : (p + 1, g') ∈ shingles b' w') : (b, w) = (b', w') := by
  obtain ⟨hlength, before, after, rfl, rfl⟩ := mem_shingles.1 hg
  obtain ⟨hlength', before', after', rfl, hp⟩ := mem_shingles.1 hg'
  unfold gramSize at hlength hlength'
  refine eq_of_near h h' ?_ ?_
  · simp only [List.length_append]
    omega
  · simp only [List.length_append]
    omega

/-- **Grams that follow each other** spell a piece of one word. -/
theorem phrase_iff (words : List (List Char)) (hq : gramSize ≤ q.length) (p : Nat) :
    (∀ x ∈ shingles p q, x ∈ spelled words) ↔
      ∃ b w before after, (b, w) ∈ place 0 words ∧ w = before ++ q ++ after ∧ p = b + before.length := by
  constructor
  · intro h
    fun_induction shingles p q with
    | case1 p a b c rest ih =>
      obtain ⟨hfirst, hrest⟩ := List.forall_mem_cons.1 h
      obtain ⟨place₁, w₁, hplace₁, hgram⟩ := mem_spelled.1 hfirst
      obtain ⟨-, before, after, hw₁, hp⟩ := mem_shingles.1 hgram
      -- with a single gram there is nothing to be put together
      cases rest with
      | nil => exact ⟨place₁, w₁, before, after, hplace₁, hw₁, hp⟩
      | cons d rest =>
        -- what is behind the first gram is spelled by the same word
        obtain ⟨place₂, w₂, before₂, after₂, hplace₂, hw₂, hp₂⟩ := ih (by simp [gramSize]) hrest
        have hgram₂ : (p + 1, [b, c, d]) ∈ shingles place₂ w₂ :=
          mem_shingles.2 ⟨rfl, before₂, rest ++ after₂, by rw [hw₂]; simp, hp₂⟩
        obtain ⟨rfl, rfl⟩ := Prod.mk.inj (eq_of_mem_place hplace₁ hplace₂ hgram hgram₂)
        have hsplit : (before ++ [a]) ++ ([b, c] ++ after) = before₂ ++ ((b :: c :: d :: rest) ++ after₂) := by
          rw [← List.append_assoc before₂, ← hw₂, hw₁]
          simp
        obtain ⟨rfl, -⟩ := List.append_inj hsplit (by rw [List.length_append, List.length_singleton]; omega)
        exact ⟨place₁, w₁, before, after₂, hplace₁, by rw [hw₂]; simp, hp⟩
    | case2 q p hshort =>
      match q, hq with
      | a :: b :: c :: rest, _ => exact (hshort a b c rest rfl).elim
  · rintro ⟨b, w, before, after, hplace, rfl, rfl⟩ ⟨i, g⟩ hgram
    obtain ⟨hg, before', after', rfl, rfl⟩ := mem_shingles.1 hgram
    refine mem_spelled.2 ⟨b, _, hplace, mem_shingles.2 ⟨hg, before ++ before', after' ++ after, ?_, ?_⟩⟩
    · simp only [List.append_assoc]
    · rw [List.length_append, Nat.add_assoc]

end Grams

/-! ### Texts in lower case -/

/-- A piece without a character lies before or behind it. -/
theorem infix_append_cons {α : Type} {x l r : List α} {c : α} (hc : c ∉ x) :
    x <:+: l ++ c :: r ↔ x <:+: l ∨ x <:+: r := by
  constructor
  · rintro ⟨before, after, heq⟩
    rcases List.append_eq_append_iff.1 heq with ⟨between, rfl, -⟩ | ⟨behind, hleft, hright⟩
    · exact .inl ⟨before, between, rfl⟩
    -- the piece ends right before the character, or behind it
    rcases List.cons_eq_append_iff.1 hright with ⟨rfl, -⟩ | ⟨behind, rfl, rfl⟩
    · exact .inl ⟨before, [], by rw [List.append_nil, hleft, List.append_nil]⟩
    rcases List.append_eq_append_iff.1 hleft with ⟨between, -, hx⟩ | ⟨between, rfl, hx⟩
    · exact absurd (hx ▸ List.mem_append_right between List.mem_cons_self) hc
    · rcases List.cons_eq_append_iff.1 hx with ⟨-, rfl⟩ | ⟨between, -, rfl⟩
      · exact absurd List.mem_cons_self hc
      · exact .inr ⟨between, after, rfl⟩
  · rintro (⟨before, after, rfl⟩ | ⟨before, after, rfl⟩)
    · exact ⟨before, after ++ c :: r, by simp only [List.append_assoc]⟩
    · exact ⟨l ++ c :: before, after, by simp only [List.append_assoc, List.cons_append]⟩

theorem lowerEach_append (s t : List Char) : lowerEach (s ++ t) = lowerEach s ++ lowerEach t :=
  List.flatMap_append

namespace Grams

/-- A piece without blanks of a run that has begun and a text behind it is one of a run. -/
theorem infix_runs_iff {q : List Char} (hne : q ≠ []) (hq : ∀ c ∈ q, isBlank c = false) (offset : Nat)
    (run s : List Char) :
    q <:+: lowerEach (run.reverse ++ s) ↔ ∃ r ∈ runs offset run s, q <:+: lowerEach r.2 := by
  -- the run that ends here, if there is one
  have hends : ∀ (offset : Nat) (run : List Char),
      q <:+: lowerEach run.reverse ↔
        ∃ r ∈ (if run.isEmpty then [] else [(offset - byteLength run, run.reverse)] :
          List (Nat × List Char)), q <:+: lowerEach r.2 := by
    intro offset run
    cases run with
    | nil => exact iff_of_false (fun h => hne (List.infix_nil.1 h)) (fun ⟨_, hr, _⟩ => nomatch hr)
    | cons c run =>
      rw [List.isEmpty_cons, if_neg Bool.false_ne_true]
      simp only [List.mem_singleton, exists_eq_left]
  induction s generalizing offset run with
  | nil =>
    rw [List.append_nil, runs]
    exact hends offset run
  | cons c rest ih =>
    rw [runs]
    split
    -- a blank is not in the piece, and stays in lower case
    · next hblank =>
      have hlower : lowerChar c = [c] :=
        Text.lowerChar_of_mem (((Text.isCaseless_of_isBlank hblank).mem_lowerChar c).2 rfl)
      have hnot : c ∉ q := fun hc => nomatch (hq c hc).symm.trans hblank
      have hcons : lowerEach (c :: rest) = c :: lowerEach rest := congrArg (· ++ lowerEach rest) hlower
      have hrest : q <:+: lowerEach rest ↔
          ∃ r ∈ runs (offset + c.utf8Size) [] rest, q <:+: lowerEach r.2 :=
        ih (offset + c.utf8Size) []
      rw [lowerEach_append, hcons, infix_append_cons hnot, hends offset run, hrest]
      simp only [List.mem_append, or_and_right, exists_or]
    · have hrest := ih (offset + c.utf8Size) (c :: run)
      rwa [List.reverse_cons, List.append_assoc, List.singleton_append] at hrest

/-- **A piece without blanks** of a text in lower case is one of a word. -/
theorem infix_lowerEach_iff {s q : List Char} (hne : q ≠ []) (hq : ∀ c ∈ q, isBlank c = false) :
    q <:+: lowerEach s ↔ ∃ w ∈ words s, q <:+: w := by
  have hruns : q <:+: lowerEach s ↔ ∃ r ∈ runs 0 [] s, q <:+: lowerEach r.2 :=
    infix_runs_iff hne hq 0 [] s
  rw [hruns]
  unfold words
  simp only [List.mem_map, exists_exists_and_eq_and]

/-- **A word is spelled out by the grams of a text** if the text contains it. -/
theorem spelled_iff {s q : List Char} (hlength : gramSize ≤ q.length) (hq : ∀ c ∈ q, isBlank c = false) :
    (∃ p, ∀ x ∈ shingles p q, x ∈ spelled (words s)) ↔ q <:+: lowerEach s := by
  have hne : q ≠ [] := by
    rintro rfl
    exact absurd hlength (by decide)
  rw [infix_lowerEach_iff hne hq]
  constructor
  · rintro ⟨p, hspelled⟩
    obtain ⟨b, w, before, after, hplace, rfl, -⟩ := (phrase_iff _ hlength p).1 hspelled
    exact ⟨_, ((exists_mem_place 0 _ _).1 ⟨b, hplace⟩).1, before, after, rfl⟩
  · rintro ⟨w, hw, before, after, rfl⟩
    have hlong : gramSize ≤ (before ++ q ++ after).length := by
      rw [List.length_append, List.length_append]
      omega
    obtain ⟨b, hplace⟩ := (exists_mem_place 0 _ _).2 ⟨hw, hlong⟩
    exact ⟨b + before.length, (phrase_iff _ hlength _).2 ⟨b, _, before, after, hplace, rfl, rfl⟩⟩

theorem spelled_singleton {q : List Char} (hlength : gramSize ≤ q.length) :
    spelled [q] = shingles 0 q := by
  rw [spelled, place, if_neg (Nat.not_lt.2 hlength), place, List.flatMap_singleton]

/-- Every gram has its size. -/
theorem length_text {s : List Char} {t : Token} (ht : t ∈ grams s) : t.text.length = gramSize := by
  have hmem : (t.position, t.text) ∈ spelled (words s) := by
    rw [← map_grams]
    exact List.mem_map.2 ⟨t, ht, rfl⟩
  obtain ⟨b, w, -, hgram⟩ := mem_spelled.1 hmem
  exact (mem_shingles.1 hgram).1

end Grams

end EventCatalog.Analysis
