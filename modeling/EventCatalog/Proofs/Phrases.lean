import Mathlib.Data.List.Forall2
import EventCatalog.Proofs.Grams

/-!
# Phrases of several words

A pattern of several words is looked for by the grams of those words that are long enough to have any, all moved
alike (`Grams.HasPhrase`). In terms of words: each of them stands in a word of the text, at the distance from the
first that it has in the pattern (`Grams.hasPhrase_iff`).

Between the places of two words there is a gap of one position, which does not keep them apart in all cases. A word
with `n` characters has `n - 2` grams, so in one word of a text the grams of the second word of a pattern come as far
behind those of the first as they should if both words have one character in common (`Grams.hasPhrase_glued`).
That takes a word that begins with the last character of the one before. If there is none, a phrase is found only
where its words stand in as many words, in the same order (`Grams.sublistForall₂_words`).

A text that is put in lower case in another way than the pattern has words of the same lengths, and then
words are found only where they stand (`Grams.hasPhrase_map_iff`).
-/

namespace EventCatalog.Analysis.Grams

variable {u v w : List Char} {us ws : List (List Char)} {placed : List (Nat × List Char)} {b p position : Nat}

/-! ### Words at positions -/

/-- The grams of words are among the grams of others, all moved alike. -/
def HasPhrase (ws us : List (List Char)) : Prop :=
  ∃ p, ∀ x ∈ spelled us, (p + x.1, x.2) ∈ spelled ws

/-- A word is a piece of one that has been placed, with its first gram at a position. -/
def StandsAt (placed : List (Nat × List Char)) (p : Nat) (u : List Char) : Prop :=
  ∃ b w before after, (b, w) ∈ placed ∧ w = before ++ u ++ after ∧ p = b + before.length

/-- **A phrase is found** where each of its words is found, all moved alike. -/
theorem hasPhrase_iff :
    HasPhrase ws us ↔ ∃ p, ∀ b u, (b, u) ∈ place 0 us → StandsAt (place 0 ws) (p + b) u := by
  refine exists_congr fun p => ?_
  unfold spelled
  simp only [List.forall_mem_flatMap, Prod.forall]
  refine forall_congr' fun b => forall_congr' fun u => forall_congr' fun hu => ?_
  -- a word that has a place has grams, and they are found where the word stands
  have hlong : gramSize ≤ u.length := ((exists_mem_place 0 us u).1 ⟨b, hu⟩).2
  rw [StandsAt, ← phrase_iff ws hlong (p + b), shingles_add]
  simp only [List.forall_mem_map, Prod.forall]
  rfl

/-- Words without grams take no place. -/
theorem place_filter (position : Nat) (ws : List (List Char)) :
    place position (ws.filter fun w => gramSize ≤ w.length) = place position ws := by
  induction ws generalizing position with
  | nil => rfl
  | cons w ws ih =>
    by_cases hshort : w.length < gramSize
    · rw [List.filter_cons_of_neg (by simpa using hshort), ih, place, if_pos hshort]
    · rw [List.filter_cons_of_pos (by simpa using hshort), place, place, if_neg hshort, if_neg hshort, ih]

theorem place_cons_of_le (hlong : gramSize ≤ w.length) (position : Nat) (ws : List (List Char)) :
    place position (w :: ws) = (position, w) :: place (position + (w.length - 2) + 1) ws := by
  rw [place, if_neg (Nat.not_lt.2 hlong)]

/-- The first gram has the position 0. -/
theorem position_of_mem_head? {ws : List (List Char)} : ∀ x ∈ (spelled ws).head?, x.1 = 0 := by
  induction ws with
  | nil => rintro x ⟨⟩
  | cons w ws ih =>
    unfold spelled at ih ⊢
    by_cases hshort : w.length < gramSize
    · rwa [place, if_pos hshort]
    · obtain ⟨g, rest, hfirst⟩ := exists_shingles_eq_cons 0 (Nat.le_of_not_lt hshort)
      rw [place, if_neg hshort, List.flatMap_cons, hfirst]
      rintro x ⟨⟩
      rfl

/-- There are no grams if all words are too short for one. -/
theorem spelled_eq_nil_iff : spelled ws = [] ↔ ∀ w ∈ ws, w.length < gramSize := by
  constructor
  · intro hnil w hw
    by_contra hlong
    obtain ⟨b, hb⟩ := (exists_mem_place 0 ws w).2 ⟨hw, Nat.le_of_not_lt hlong⟩
    -- a word that is long enough has a first gram
    obtain ⟨g, rest, hfirst⟩ := exists_shingles_eq_cons b (Nat.le_of_not_lt hlong)
    have hmem : (b, g) ∈ spelled ws := mem_spelled.2 ⟨b, w, hb, by rw [hfirst]; exact List.mem_cons_self⟩
    rw [hnil] at hmem
    exact nomatch hmem
  · intro hshort
    refine List.eq_nil_iff_forall_not_mem.2 fun x hx => ?_
    obtain ⟨b, w, hplace, -⟩ := mem_spelled.1 hx
    obtain ⟨hw, hlong⟩ := (exists_mem_place 0 ws w).1 ⟨b, hplace⟩
    exact Nat.not_lt.2 hlong (hshort w hw)

/-- What stands before the place of the second word stands in the first. -/
theorem StandsAt.in_first (h : StandsAt ((b, w) :: place position ws) p u) (hp : p < position) :
    ∃ before after, w = before ++ u ++ after ∧ p = b + before.length := by
  obtain ⟨b', w', before, after, hmem, hw, rfl⟩ := h
  rcases List.mem_cons.1 hmem with heq | hmem
  · obtain ⟨rfl, rfl⟩ := Prod.mk.inj heq
    exact ⟨before, after, hw, rfl⟩
  · have hle := (pairwise_place position ws).1 _ hmem
    simp only at hle
    omega

/-- What stands from the place of the second word on stands in one of the words behind the first. -/
theorem StandsAt.of_cons (h : StandsAt ((b, w) :: placed) p u) (hu : gramSize ≤ u.length)
    (hp : b + (w.length - 2) + 1 ≤ p) : StandsAt placed p u := by
  obtain ⟨b', w', before, after, hmem, hw, rfl⟩ := h
  rcases List.mem_cons.1 hmem with heq | hmem
  · obtain ⟨rfl, rfl⟩ := Prod.mk.inj heq
    rw [hw, List.length_append, List.length_append] at hp
    unfold gramSize at hu
    omega
  · exact ⟨b', w', before, after, hmem, hw, rfl⟩

/-! ### The words of a phrase in order -/

/-- Of two pieces of a word one ends with the character with which the other begins. -/
theorem getLast?_eq_head? {before after before' after' : List Char} (hu : u ≠ []) (hv : v ≠ [])
    (heq : before ++ u ++ after = before' ++ v ++ after')
    (hlength : before'.length + 1 = before.length + u.length) : u.getLast? = v.head? := by
  obtain ⟨front, c, rfl⟩ := List.eq_nil_or_concat u |>.resolve_left hu
  obtain ⟨d, back, rfl⟩ := List.exists_cons_of_ne_nil hv
  rw [List.concat_eq_append] at heq hlength ⊢
  -- the word split at the last character of the one, which is the first of the other
  have hsplit : (before ++ front) ++ c :: after = before' ++ d :: (back ++ after') := by
    simpa only [List.append_assoc, List.cons_append, List.nil_append] using heq
  rw [List.length_append, List.length_singleton] at hlength
  obtain ⟨-, hrest⟩ := List.append_inj hsplit (by rw [List.length_append]; omega)
  obtain ⟨rfl, -⟩ := List.cons.inj hrest
  rw [List.getLast?_concat]
  rfl

/-- Of two words of a phrase, the second stands behind the word in which the first stands, if it does not
begin with the last character of the first. -/
theorem StandsAt.next_behind (hu : gramSize ≤ u.length) (hv : gramSize ≤ v.length)
    (hapart : u.getLast? ≠ v.head?) (h : StandsAt ((b, w) :: place position ws) p u) (hp : p < position)
    {next : Nat} (hbehind : next = p + (u.length - 2) + 1)
    (hnext : StandsAt ((b, w) :: place position ws) next v) : position ≤ next := by
  -- otherwise both are pieces of one word, and the gap puts them one character into each other
  by_contra hlt
  obtain ⟨before, after, hw, hstart⟩ := h.in_first hp
  obtain ⟨before', after', hw', hstart'⟩ := hnext.in_first (Nat.lt_of_not_le hlt)
  unfold gramSize at hu hv
  exact hapart (getLast?_eq_head? (List.ne_nil_of_length_pos (by omega)) (List.ne_nil_of_length_pos (by omega))
    (hw.symm.trans hw') (by omega))

/-- **Words in order.** The words of a phrase stand in as many words, in the same order, if none of them begins
with the last character of the one before. The induction is on the words in which they stand. -/
theorem sublistForall₂_words {n m : Nat} (hlong : ∀ u ∈ us, gramSize ≤ u.length)
    (hapart : us.IsChain fun u v => u.getLast? ≠ v.head?)
    (h : ∀ b u, (b, u) ∈ place n us → StandsAt (place m ws) (p + b) u) :
    List.SublistForall₂ (fun u w => u <:+: w) us ws := by
  induction ws generalizing us n m with
  | nil =>
    cases us with
    | nil => exact .nil
    | cons u us =>
      rw [place_cons_of_le (hlong u List.mem_cons_self)] at h
      obtain ⟨_, _, _, _, hmem, -⟩ := h n u List.mem_cons_self
      exact nomatch hmem
  | cons w ws ih =>
    cases us with
    | nil => exact .nil
    | cons u us =>
      by_cases hshort : w.length < gramSize
      -- a word of the text without grams takes no place, so nothing stands in it
      · have hplace : place m (w :: ws) = place m ws := if_pos hshort
        rw [hplace] at h
        exact .cons_right (ih hlong hapart h)
      rw [place_cons_of_le (Nat.le_of_not_lt hshort)] at h
      -- words from a position on that is behind this word stand behind it
      have hbehind : ∀ {k : Nat} {vs : List (List Char)},
          (∀ b v, (b, v) ∈ place k vs → (b, v) ∈ place n (u :: us)) →
          m + (w.length - 2) + 1 ≤ p + k → ∀ b v, (b, v) ∈ place k vs →
          StandsAt (place (m + (w.length - 2) + 1) ws) (p + b) v := by
        intro k vs hsub hk b v hv
        have hle : k ≤ b := (pairwise_place k vs).1 _ hv
        exact (h b v (hsub b v hv)).of_cons ((exists_mem_place k vs v).1 ⟨b, hv⟩).2 (by omega)
      by_cases hfirst : m + (w.length - 2) + 1 ≤ p + n
      · exact .cons_right (ih hlong hapart (hbehind (fun _ _ hv => hv) hfirst))
      -- the first word stands in this one, and the others behind it
      · obtain ⟨hu, hus⟩ := List.forall_mem_cons.1 hlong
        rw [place_cons_of_le hu] at h hbehind
        have hhere := h n u List.mem_cons_self
        obtain ⟨before, after, hin, -⟩ := hhere.in_first (Nat.lt_of_not_le hfirst)
        refine .cons ⟨before, after, hin.symm⟩ ?_
        cases us with
        | nil => exact .nil
        | cons v us =>
          obtain ⟨hne, hrest⟩ := List.isChain_cons_cons.1 hapart
          have hv := hus v List.mem_cons_self
          have hnext := h (n + (u.length - 2) + 1) v
            (List.mem_cons_of_mem _ (by rw [place_cons_of_le hv]; exact List.mem_cons_self))
          refine ih hus hrest (hbehind (fun _ _ hv => List.mem_cons_of_mem _ hv) ?_)
          exact hhere.next_behind hu hv hne (Nat.lt_of_not_le hfirst) (by omega) hnext

/-! ### Phrases that a text has -/

/-- A text of the words with grams has the phrase of all words. -/
theorem hasPhrase_filter (us : List (List Char)) : HasPhrase (us.filter fun u => gramSize ≤ u.length) us := by
  refine ⟨0, fun x hx => ?_⟩
  rw [spelled, place_filter, Nat.zero_add]
  exact hx

/-- Words in front do not depend on those behind. -/
theorem exists_place_append (n : Nat) (front : List (List Char)) :
    ∃ k, ∀ rest, place n (front ++ rest) = place n front ++ place k rest := by
  induction front generalizing n with
  | nil => exact ⟨n, fun rest => rfl⟩
  | cons w front ih =>
    by_cases hshort : w.length < gramSize
    · obtain ⟨k, hk⟩ := ih n
      refine ⟨k, fun rest => ?_⟩
      rw [List.cons_append, place, if_pos hshort, hk, place, if_pos hshort]
    · obtain ⟨k, hk⟩ := ih (n + (w.length - 2) + 1)
      refine ⟨k, fun rest => ?_⟩
      rw [List.cons_append, place, if_neg hshort, hk, place, if_neg hshort, List.cons_append]

/-- **Two words in one.** If a word of a phrase begins with the last character of the one before, both are found
in one word, in which they have this character in common. -/
theorem hasPhrase_glued {front back : List (List Char)} {u v : List Char} {c : Char}
    (hu : gramSize ≤ (u ++ [c]).length) (hv : gramSize ≤ (c :: v).length) :
    HasPhrase (front ++ (u ++ c :: v) :: back) (front ++ (u ++ [c]) :: (c :: v) :: back) := by
  obtain ⟨k, hk⟩ := exists_place_append 0 front
  have hglued : gramSize ≤ (u ++ c :: v).length := by
    rw [List.length_append] at hu ⊢
    rw [List.length_cons]
    rw [List.length_singleton] at hu
    omega
  refine hasPhrase_iff.2 ⟨0, fun b x hx => ?_⟩
  have hself : (b, x) ∈ place 0 (front ++ (u ++ c :: v) :: back) →
      StandsAt (place 0 (front ++ (u ++ c :: v) :: back)) (0 + b) x :=
    fun hmem => ⟨b, x, [], [], hmem, by simp, by simp⟩
  rw [hk, place_cons_of_le hglued] at hself ⊢
  rw [hk, place_cons_of_le hu, place_cons_of_le hv, List.mem_append, List.mem_cons, List.mem_cons] at hx
  -- one word takes up as much as the two with the gap between them
  have hnext : k + ((u ++ [c]).length - 2) + 1 + ((c :: v).length - 2) + 1 =
      k + ((u ++ c :: v).length - 2) + 1 := by
    simp only [gramSize, List.length_append, List.length_cons, List.length_nil] at hu hv ⊢
    omega
  rw [hnext] at hx
  rcases hx with hx | hx | hx | hx
  -- the words in front stand where they are, and so do those behind
  · exact hself (List.mem_append_left _ hx)
  · obtain ⟨rfl, rfl⟩ := Prod.mk.inj hx
    exact ⟨b, _, [], v, List.mem_append_right _ List.mem_cons_self, by simp, by simp⟩
  · obtain ⟨rfl, rfl⟩ := Prod.mk.inj hx
    refine ⟨k, _, u, [], List.mem_append_right _ List.mem_cons_self, by simp, ?_⟩
    simp only [gramSize, List.length_append, List.length_cons, List.length_nil] at hu ⊢
    omega
  · exact hself (List.mem_append_right _ (List.mem_cons_of_mem _ hx))

/-! ### The same words in two spellings -/

/-- Words of the same lengths take the same places. -/
theorem exists_place_map {α : Type} {f g : α → List Char} {raw : List α}
    (hlength : ∀ r ∈ raw, (f r).length = (g r).length) (n : Nat) :
    ∃ placed : List (Nat × α), place n (raw.map f) = placed.map (fun x => (x.1, f x.2)) ∧
      place n (raw.map g) = placed.map (fun x => (x.1, g x.2)) ∧
      ∀ r, (∃ b, (b, r) ∈ placed) ↔ r ∈ raw ∧ gramSize ≤ (f r).length := by
  induction raw generalizing n with
  | nil => exact ⟨[], rfl, rfl, fun r => iff_of_false (fun ⟨_, h⟩ => nomatch h) fun h => nomatch h.1⟩
  | cons r raw ih =>
    obtain ⟨hr, hrest⟩ := List.forall_mem_cons.1 hlength
    by_cases hshort : (g r).length < gramSize
    · obtain ⟨placed, hf, hg, hmem⟩ := ih hrest n
      refine ⟨placed, ?_, ?_, fun r' => ?_⟩
      · rw [List.map_cons, place, if_pos (hr ▸ hshort), hf]
      · rw [List.map_cons, place, if_pos hshort, hg]
      · rw [hmem, List.mem_cons, or_and_right]
        refine (or_iff_right ?_).symm
        rintro ⟨rfl, hlong⟩
        omega
    · obtain ⟨placed, hf, hg, hmem⟩ := ih hrest (n + ((g r).length - 2) + 1)
      refine ⟨(n, r) :: placed, ?_, ?_, fun r' => ?_⟩
      · rw [List.map_cons, place, if_neg (hr ▸ hshort), hr, hf]
        rfl
      · rw [List.map_cons, place, if_neg hshort, hg]
        rfl
      · simp only [List.mem_cons, Prod.mk.injEq, exists_or, exists_eq_left, hmem, or_and_right]
        refine or_congr_left (iff_self_and.2 ?_)
        rintro rfl
        omega

/-- There is a last place. -/
theorem exists_last_place (h : ∃ x, x ∈ place 0 ws) :
    ∃ b w, (b, w) ∈ place 0 ws ∧ ∀ b' w', (b', w') ∈ place 0 ws → b' ≤ b := by
  obtain ⟨x, hx⟩ := h
  obtain ⟨front, ⟨b, w⟩, hplace⟩ := (List.eq_nil_or_concat _).resolve_left (List.ne_nil_of_mem hx)
  -- places are in increasing order
  have hapart := (pairwise_place 0 ws).2
  rw [List.concat_eq_append] at hplace
  rw [hplace] at hapart ⊢
  refine ⟨b, w, List.mem_append_right _ (List.mem_singleton_self _), fun b' w' hmem => ?_⟩
  rcases List.mem_append.1 hmem with hmem | hmem
  · have hgap := (List.pairwise_append.1 hapart).2.2 _ hmem _ (List.mem_singleton_self _)
    simp only at hgap
    omega
  · exact Nat.le_of_eq (Prod.mk.inj (List.mem_singleton.1 hmem)).1

/-- What stands near the place of a word, and in no later one, stands in that word. -/
theorem StandsAt.in_word (h : StandsAt (place 0 ws) p u) (hu : gramSize ≤ u.length)
    (hw : (b, w) ∈ place 0 ws) (hle : b ≤ p)
    (hlast : ∀ b' w', (b', w') ∈ place 0 ws → b' ≤ p → b' ≤ b) :
    ∃ before after, w = before ++ u ++ after ∧ p = b + before.length := by
  obtain ⟨b', w', before, after, hmem, rfl, rfl⟩ := h
  have hnear := hlast b' _ hmem (Nat.le_add_right _ _)
  -- the place of the word lies within the word in which the piece stands, so it is the place of that word
  have heq := eq_of_near hw hmem (by
    simp only [gramSize, List.length_append] at hu ⊢
    omega) (by omega)
  obtain ⟨rfl, rfl⟩ := Prod.mk.inj heq
  exact ⟨before, after, rfl, rfl⟩

section TwoSpellings

variable {α : Type} {f g : α → List Char} {raw : List α} (hlength : ∀ r ∈ raw, (f r).length = (g r).length)

include hlength

/-- The last word leaves no room for moving the words. -/
theorem eq_zero_of_standsAt (hsome : ∃ r ∈ raw, gramSize ≤ (f r).length)
    (h : ∀ b u, (b, u) ∈ place 0 (raw.map f) → StandsAt (place 0 (raw.map g)) (p + b) u) : p = 0 := by
  obtain ⟨placed, hf, hg, hraw⟩ := exists_place_map hlength 0
  rw [hf, hg] at h
  obtain ⟨r, hr⟩ := hsome
  obtain ⟨b, hb⟩ := (hraw r).2 hr
  obtain ⟨last, w, hlast, hmax⟩ := @exists_last_place (raw.map f) ⟨_, hf ▸ List.mem_map_of_mem hb⟩
  rw [hf] at hlast hmax
  obtain ⟨⟨last, r'⟩, hr', ⟨⟩⟩ := List.mem_map.1 hlast
  obtain ⟨hmem, hlong⟩ := (hraw r').1 ⟨last, hr'⟩
  have hstands := h last (f r') (List.mem_map_of_mem hr')
  rw [← hg] at hstands
  obtain ⟨before, after, hword, hstart⟩ := hstands.in_word hlong (hg ▸ List.mem_map_of_mem hr')
    (Nat.le_add_left _ _) fun b' w' hmem' _ => by
      rw [hg] at hmem'
      obtain ⟨⟨b', r''⟩, hr'', ⟨⟩⟩ := List.mem_map.1 hmem'
      exact hmax b' (f r'') (List.mem_map_of_mem hr'')
  -- a word of the same length has no place for anything in front
  have hsame := hlength r' hmem
  rw [hword, List.length_append, List.length_append] at hsame
  omega

/-- **Words in two spellings** of the same lengths. If any of them has grams, the words as they are spelled in one
way are found among them as they are spelled in the other if those with grams are spelled alike. -/
theorem hasPhrase_map_iff (hsome : ∃ r ∈ raw, gramSize ≤ (f r).length) :
    HasPhrase (raw.map g) (raw.map f) ↔ ∀ r ∈ raw, gramSize ≤ (f r).length → f r = g r := by
  obtain ⟨placed, hf, hg, hraw⟩ := exists_place_map hlength 0
  rw [hasPhrase_iff]
  constructor
  · rintro ⟨p, hstands⟩ r hr hlong
    obtain rfl := eq_zero_of_standsAt hlength hsome hstands
    obtain ⟨b, hb⟩ := (hraw r).2 ⟨hr, hlong⟩
    have hhere := hstands b (f r) (hf ▸ List.mem_map_of_mem hb)
    rw [Nat.zero_add] at hhere
    obtain ⟨before, after, hword, hstart⟩ := hhere.in_word hlong (hg ▸ List.mem_map_of_mem hb) (Nat.le_refl b)
      fun _ _ _ h => h
    have hsame := hlength r hr
    rw [hword, List.length_append, List.length_append] at hsame
    -- what is as long as the word it stands in is the whole of it
    obtain rfl : before = [] := List.length_eq_zero_iff.1 (by omega)
    obtain rfl : after = [] := List.length_eq_zero_iff.1 (by omega)
    rw [hword, List.nil_append, List.append_nil]
  · intro heq
    refine ⟨0, fun b u hu => ?_⟩
    rw [hf] at hu
    obtain ⟨⟨b, r⟩, hr, ⟨⟩⟩ := List.mem_map.1 hu
    obtain ⟨hmem, hlong⟩ := (hraw r).1 ⟨b, hr⟩
    exact ⟨b, g r, [], [], hg ▸ List.mem_map_of_mem hr, by rw [heq r hmem hlong]; simp, by simp⟩

end TwoSpellings

end EventCatalog.Analysis.Grams
