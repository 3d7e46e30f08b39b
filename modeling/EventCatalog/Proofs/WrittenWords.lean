import EventCatalog.Proofs.FinalSigma
import EventCatalog.Proofs.Grams

/-!
# The words of a text as they are written

The words of a text are its maximal runs of characters that are no blanks. `Grams.pieces` are these runs as
they are written; analysis puts each of them in lower case, character by character (`Grams.words_eq`). A
blank splits a text in two whose words are put side by side (`Grams.pieces_append_cons`), so blanks around a
text make no difference (`Grams.pieces_trim`), and words that are put together with blanks between them can be
told apart again (`Grams.pieces_joined`).

A pattern is put in lower case as a whole. That can be done word by word as well, for what a capital sigma becomes
is decided within its word (`Grams.pieces_lowerAfter`).
-/

namespace EventCatalog

/-- The words of a pattern as it is matched. -/
abbrev Glob.words (pattern : String) : List (List Char) := Analysis.Grams.words (normalize pattern)

namespace Analysis.Grams

open Text (isBlank lowerChar lowerEach lowerAfter)

variable {s : List Char} {w : List Char} {c : Char}

/-! ### Splitting a text -/

/-- The words of a text as they are written. -/
def pieces (s : List Char) : List (List Char) := (runs 0 [] s).map Prod.snd

/-- The words of a text in lower case are its words as they are written, each in lower case. -/
theorem words_eq (s : List Char) : words s = (pieces s).map lowerEach := by
  rw [words, pieces, List.map_map]
  rfl

/-- Any text is a word, or a word in front of a blank and another text. -/
theorem blank_induction {P : List Char → Prop} (word : ∀ w, (∀ c ∈ w, isBlank c = false) → P w)
    (blank : ∀ w c rest, (∀ c ∈ w, isBlank c = false) → isBlank c = true → P rest → P (w ++ c :: rest))
    (s : List Char) : P s := by
  induction hn : s.length using Nat.strongRecOn generalizing s with
  | ind n ih =>
    -- the text in front of the first blank, and the rest from there
    have hsplit := List.takeWhile_append_dropWhile (p := fun c => !isBlank c) (l := s)
    have hword : ∀ c ∈ s.takeWhile fun c => !isBlank c, isBlank c = false := fun c hc => by
      simpa using List.mem_takeWhile_imp hc
    cases hrest : s.dropWhile fun c => !isBlank c with
    | nil =>
      rw [hrest, List.append_nil] at hsplit
      rw [← hsplit]
      exact word _ hword
    | cons c rest =>
      have hblank : isBlank c = true := by
        have hhead := List.head?_dropWhile_not (fun c => !isBlank c) s
        rw [hrest] at hhead
        simpa using hhead
      rw [← hsplit, hrest]
      refine blank _ c rest hword hblank (ih rest.length ?_ rest rfl)
      -- what is behind the blank is shorter
      have hlength := congrArg List.length hsplit
      rw [hrest, List.length_append, List.length_cons] at hlength
      omega

theorem map_snd_runs (offset : Nat) (run s : List Char) :
    (runs offset run s).map Prod.snd = (runs 0 run s).map Prod.snd := by
  induction s generalizing offset run with
  | nil =>
    rw [runs, runs]
    split <;> rfl
  | cons c s ih =>
    rw [runs, runs]
    split
    · rw [List.map_append, List.map_append, ih (offset + c.utf8Size), ih (0 + c.utf8Size)]
      -- the offset goes along with a run, and does not decide what it is
      congr 1
      split <;> rfl
    · rw [ih (offset + c.utf8Size), ih (0 + c.utf8Size)]

theorem runs_append_cons (hc : isBlank c = true) (offset : Nat) (run s t : List Char) :
    runs offset run (s ++ c :: t) = runs offset run s ++ runs (offset + byteLength s + c.utf8Size) [] t := by
  induction s generalizing offset run with
  | nil =>
    -- the blank ends the run that has been read so far
    rw [List.nil_append, runs.eq_2, if_pos hc, runs]
    rfl
  | cons b s ih =>
    rw [List.cons_append, runs, runs, byteLength_cons, ← Nat.add_assoc offset]
    split
    · rw [ih, List.append_assoc]
    · exact ih _ _

/-- **A blank splits a text in two.** -/
theorem pieces_append_cons (s : List Char) (hc : isBlank c = true) (t : List Char) :
    pieces (s ++ c :: t) = pieces s ++ pieces t := by
  rw [pieces, runs_append_cons hc, List.map_append, map_snd_runs (0 + byteLength s + c.utf8Size)]
  rfl

theorem runs_eq_singleton (hne : s ≠ []) (hs : ∀ c ∈ s, isBlank c = false) (offset : Nat) :
    runs offset [] s = [(offset, s)] := by
  obtain ⟨c, rest, rfl⟩ := List.exists_cons_of_ne_nil hne
  have htake : (c :: rest).takeWhile (fun c => !isBlank c) = c :: rest :=
    List.takeWhile_eq_self_iff.2 fun b hb => by rw [hs b hb]; rfl
  have hdrop : (c :: rest).dropWhile (fun c => !isBlank c) = [] :=
    List.dropWhile_eq_nil_iff.2 fun b hb => by rw [hs b hb]; rfl
  rw [runs_cons (hs c List.mem_cons_self), htake, hdrop]
  rfl

/-- A text without blanks is its only word. -/
theorem pieces_eq_singleton (hne : s ≠ []) (hs : ∀ c ∈ s, isBlank c = false) : pieces s = [s] := by
  rw [pieces, runs_eq_singleton hne hs]
  rfl

/-- Words are pieces of the text, and neither empty nor blank. -/
theorem mem_pieces (h : w ∈ pieces s) : w ≠ [] ∧ (∀ c ∈ w, isBlank c = false) ∧ w <:+: s := by
  induction s using blank_induction with
  | word v hv =>
    by_cases hne : v = []
    · rw [hne] at h
      exact nomatch h
    · rw [pieces_eq_singleton hne hv, List.mem_singleton] at h
      subst h
      exact ⟨hne, hv, List.infix_rfl⟩
  | blank v c rest hv hc ih =>
    rw [pieces_append_cons v hc, List.mem_append] at h
    rcases h with h | h
    · by_cases hne : v = []
      · rw [hne] at h
        exact nomatch h
      · rw [pieces_eq_singleton hne hv, List.mem_singleton] at h
        subst h
        exact ⟨hne, hv, (List.prefix_append w _).isInfix⟩
    · obtain ⟨hne, hw, hpiece⟩ := ih h
      exact ⟨hne, hw, hpiece.trans ((List.suffix_cons c rest).trans (List.suffix_append v _)).isInfix⟩

/-- Blanks alone make no words. -/
theorem pieces_eq_nil (hs : ∀ c ∈ s, isBlank c = true) : pieces s = [] := by
  induction s with
  | nil => rfl
  | cons c s ih =>
    have hsplit := pieces_append_cons [] (hs c List.mem_cons_self) s
    rw [List.nil_append] at hsplit
    rw [hsplit, ih fun b hb => hs b (List.mem_cons_of_mem c hb)]
    rfl

/-- Blanks in front make no difference. -/
theorem pieces_append_of_blank {t : List Char} (hs : ∀ c ∈ s, isBlank c = true) :
    pieces (s ++ t) = pieces t := by
  induction s with
  | nil => rfl
  | cons c s ih =>
    have hsplit := pieces_append_cons [] (hs c List.mem_cons_self) (s ++ t)
    rw [List.nil_append] at hsplit
    rw [List.cons_append, hsplit, ih fun b hb => hs b (List.mem_cons_of_mem c hb)]
    rfl

/-- Neither do blanks behind. -/
theorem pieces_append_blanks {t : List Char} (ht : ∀ c ∈ t, isBlank c = true) :
    pieces (s ++ t) = pieces s := by
  cases t with
  | nil => rw [List.append_nil]
  | cons c t =>
    rw [pieces_append_cons s (ht c List.mem_cons_self),
      pieces_eq_nil fun b hb => ht b (List.mem_cons_of_mem c hb), List.append_nil]

/-- **A trimmed text has the same words.** -/
theorem pieces_trim (s : List Char) : pieces (Text.trim s) = pieces s := by
  obtain ⟨front, back, hfront, hback, hs⟩ := Text.exists_trim s
  conv => rhs; rw [hs]
  rw [pieces_append_blanks hback, pieces_append_of_blank hfront]

/-! ### Lower case word by word -/

/-- **A text is put in lower case word by word.** What becomes of a capital sigma depends on its word only. -/
theorem pieces_lowerAfter {before : List Char} (hbefore : ∀ c ∈ before.head?, isBlank c = true)
    (s : List Char) : pieces (lowerAfter before s) = (pieces s).map (lowerAfter []) := by
  -- the context of a word is empty, or begins with the blank in front of it
  have hword : ∀ (before w : List Char), (∀ c ∈ before.head?, isBlank c = true) →
      (∀ c ∈ w, isBlank c = false) → pieces (lowerAfter before w) = (pieces w).map (lowerAfter []) := by
    intro before w hbefore hw
    by_cases hne : w = []
    · rw [hne]
      rfl
    · have hself : lowerAfter before w = lowerAfter [] w :=
        Text.lowerAfter_append_left (fun c hc => Text.isBreak_of_isBlank (hbefore c hc)) [] w
      rw [hself, pieces_eq_singleton hne hw,
        pieces_eq_singleton (Text.lowerAfter_ne_nil hne) fun c hc => Text.isBlank_of_mem_lowerAfter hw hc]
      rfl
  induction s using blank_induction generalizing before with
  | word w hw => exact hword before w hbefore hw
  | blank w c rest hw hc ih =>
    have hhead : ∀ (rest : List Char), ∀ b ∈ (c :: rest).head?, isBlank b = true := by
      rintro rest b ⟨⟩
      exact hc
    have hbreak : ∀ b ∈ (c :: rest).head?, Text.IsBreak b := fun b hb =>
      Text.isBreak_of_isBlank (hhead rest b hb)
    -- up to the blank a word by itself, and from the blank on another text
    rw [Text.lowerAfter_append before w hbreak, Text.lowerAfter_cons_of_isBlank hc,
      pieces_append_cons _ hc, pieces_append_cons _ hc, List.map_append, hword before w hbefore hw,
      ih (hhead _)]

/-- What is in lower case has its words in lower case. -/
theorem words_eq_pieces (hs : ∀ c ∈ s, lowerChar c = [c]) : words s = pieces s := by
  rw [words_eq]
  refine (List.map_congr_left fun w hw => ?_).trans (List.map_id _)
  exact Text.lowerEach_eq_self fun c hc => hs c ((mem_pieces hw).2.2.subset hc)

/-- **The words of a pattern** are its words as they are written, each in lower case as a whole. -/
theorem words_glob (pattern : String) :
    Glob.words pattern = (pieces pattern.toList).map (lowerAfter []) := by
  unfold Glob.words
  rw [words_eq_pieces fun c hc => Glob.lowerChar_of_mem_normalize hc, Glob.normalize, Text.lower,
    String.toList_ofList, String.toList_ofList, pieces_lowerAfter (by simp), pieces_trim]

/-- A word in lower case. -/
structure IsWord (w : List Char) : Prop where
  ne_nil : w ≠ []
  unbroken : ∀ c ∈ w, isBlank c = false
  lower : ∀ c ∈ w, lowerChar c = [c]

/-- The words of a pattern are such, and pieces of the pattern as it is matched. -/
theorem mem_words_glob {pattern : String} (h : w ∈ Glob.words pattern) :
    IsWord w ∧ w <:+: Glob.normalize pattern := by
  unfold Glob.words at h
  rw [words_eq_pieces fun c hc => Glob.lowerChar_of_mem_normalize hc] at h
  obtain ⟨hne, hword, hpiece⟩ := mem_pieces h
  exact ⟨⟨hne, hword, fun c hc => Glob.lowerChar_of_mem_normalize (hpiece.subset hc)⟩, hpiece⟩

/-- Two words with a character in common are one word. -/
theorem IsWord.glue {u v : List Char} (hu : IsWord (u ++ [c])) (hv : IsWord (c :: v)) : IsWord (u ++ c :: v) := by
  -- every character of the whole is in one of the two words
  have hmem : ∀ b ∈ u ++ c :: v, b ∈ u ++ [c] ∨ b ∈ c :: v := by
    intro b hb
    exact (List.mem_append.1 hb).imp_left (List.mem_append_left _)
  refine ⟨by simp, fun b hb => ?_, fun b hb => ?_⟩
  · exact (hmem b hb).elim (hu.unbroken b) (hv.unbroken b)
  · exact (hmem b hb).elim (hu.lower b) (hv.lower b)

/-! ### Words put together -/

/-- Words, each with a space behind it. -/
def joined (ws : List (List Char)) : List Char := ws.flatMap (· ++ [' '])

/-- Words that are put together can be told apart. -/
theorem pieces_joined {ws : List (List Char)} (hws : ∀ w ∈ ws, IsWord w) : pieces (joined ws) = ws := by
  induction ws with
  | nil => rfl
  | cons w ws ih =>
    obtain ⟨hw, hrest⟩ := List.forall_mem_cons.1 hws
    have hcons : joined (w :: ws) = w ++ ' ' :: joined ws := by
      rw [joined, List.flatMap_cons, List.append_assoc]
      rfl
    rw [hcons, pieces_append_cons w Text.isBlank_space, pieces_eq_singleton hw.ne_nil hw.unbroken, ih hrest]
    rfl

/-- The text is in lower case. -/
theorem lowerChar_of_mem_joined {ws : List (List Char)} (hws : ∀ w ∈ ws, IsWord w) (hc : c ∈ joined ws) :
    lowerChar c = [c] := by
  obtain ⟨w, hw, hc⟩ := List.mem_flatMap.1 hc
  rcases List.mem_append.1 hc with hc | hc
  · exact (hws w hw).lower c hc
  · rw [List.mem_singleton.1 hc]
    exact Text.lowerChar_ascii (by decide)

/-- **Any words in lower case** are the words of a text. -/
theorem words_joined {ws : List (List Char)} (hws : ∀ w ∈ ws, IsWord w) : words (joined ws) = ws := by
  rw [words_eq_pieces fun c hc => lowerChar_of_mem_joined hws hc, pieces_joined hws]

end Analysis.Grams

end EventCatalog
