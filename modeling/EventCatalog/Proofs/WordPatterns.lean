import EventCatalog.Proofs.TextPatterns

/-!
# Patterns of several words

What a pattern of several words without wildcards asks of an identifier depends on which of its words are long enough
for a gram. If some are, they have to be found by their grams, all moved alike, and the other words are not looked for
at all. So all words of the pattern are in the identifier if the short ones are pieces of long ones, and
otherwise there is an identifier of the long words alone that is shown (`SearchedText.shown_contains`). If
no word is long enough, the pattern is looked for as a whole.

The long words are found in words of the identifier of their own, in the order of the pattern, if none of them
begins with the last character of the one before. Otherwise there is an identifier that has these two as one word
(`SearchedText.shown_in_order`).
-/

namespace EventCatalog.SearchedText

open Analysis (gramSize)
open Analysis.Grams (HasPhrase IsWord words joined)
open Text (lowerEach)

variable {t : SearchedText} {pattern : String} {e : Event}

/-! ### What is shown

Most of this is about a pattern without wildcards for one of the two identifiers.
-/

section Identifiers

variable (ht : t ≠ summary) (hplain : Glob.hasWildcard pattern.toList = false)

include ht hplain

/-- With a word that is long enough, what is shown is what has the grams. -/
theorem shows_iff_hasPhrase (hlong : ∃ w ∈ Glob.words pattern, gramSize ≤ w.length) :
    (t.filter pattern).Shows e ↔ HasPhrase (words (t.text e).toList) (Glob.words pattern) := by
  rw [Filter.shows_iff, (selects_hasPhrase ht hplain hlong).finds_iff]

/-- An identifier that is shown contains each word of the pattern that is long enough for a gram. -/
theorem infix_of_shows (h : (t.filter pattern).Shows e) {w : List Char} (hw : w ∈ Glob.words pattern)
    (hlong : gramSize ≤ w.length) : w <:+: lowerEach (t.text e).toList := by
  have hphrase := (shows_iff_hasPhrase ht hplain ⟨w, hw, hlong⟩).1 h
  obtain ⟨p, hstands⟩ := Analysis.Grams.hasPhrase_iff.1 hphrase
  -- the word has a place in the pattern, so it stands in some word of the identifier
  obtain ⟨b, hb⟩ := (Analysis.Grams.exists_mem_place 0 _ w).2 ⟨hw, hlong⟩
  obtain ⟨b', w', before, after, hplace, hw', -⟩ := hstands b w hb
  have hmem : w' ∈ words (t.text e).toList := ((Analysis.Grams.exists_mem_place 0 _ w').1 ⟨b', hplace⟩).1
  obtain ⟨hword, -⟩ := Analysis.Grams.mem_words_glob hw
  rw [Analysis.Grams.infix_lowerEach_iff hword.ne_nil hword.unbroken]
  exact ⟨w', hmem, before, after, hw'.symm⟩

/-- If no word of the pattern is long enough, an identifier that is shown contains the whole pattern. -/
theorem normalize_infix_of_shows (hname : ∃ c ∈ pattern.toList, Text.isBlank c = false)
    (hshort : ∀ w ∈ Glob.words pattern, w.length < gramSize) (h : (t.filter pattern).Shows e) :
    Glob.normalize pattern <:+: (Text.lower (t.text e)).toList := by
  have hterms : Query.terms pattern = [] := by
    rw [Query.terms, List.map_eq_nil_iff, Analysis.Grams.spelled_eq_nil_iff]
    exact hshort
  have hne := Glob.normalize_ne_nil hname
  have hquery := Query.ofPattern_of_short t.exists_keyword t.analyzed_target (fieldNamed_field ht) hplain hne hterms
  have hfinds := Filter.shows_iff.1 h
  cases hsize : (Regex.containing (Glob.normalize pattern)).isTooLarge with
  -- a filter that is refused finds nothing
  | true =>
    obtain ⟨q, hq, -⟩ := hfinds
    rw [refuses_containing hquery hsize] at hq
    cases hq
  | false =>
    obtain ⟨-, before, after, htext, -⟩ := (selects_containing hquery hne hsize).finds_iff.1 hfinds
    exact ⟨before, after, htext.symm⟩

/-- An identifier that is put together of words is shown if they have the phrase of the pattern. -/
theorem shows_joined (hlong : ∃ w ∈ Glob.words pattern, gramSize ≤ w.length) {ws : List (List Char)}
    (hws : ∀ w ∈ ws, IsWord w) (hphrase : HasPhrase ws (Glob.words pattern)) :
    (t.filter pattern).Shows (t.event (String.ofList (joined ws))) := by
  rw [shows_iff_hasPhrase ht hplain hlong, text_event, String.toList_ofList, Analysis.Grams.words_joined hws]
  exact hphrase

/-- The identifier of the long words alone is shown. It is in lower case, in whatever way it is put so. -/
theorem exists_shows_long (hlong : ∃ w ∈ Glob.words pattern, gramSize ≤ w.length) :
    ∃ e, (t.filter pattern).Shows e ∧ (Text.lower (t.text e)).toList = lowerEach (t.text e).toList ∧
      words (t.text e).toList = (Glob.words pattern).filter fun u => gramSize ≤ u.length := by
  obtain ⟨ws, hws⟩ : ∃ ws, ws = (Glob.words pattern).filter fun u => gramSize ≤ u.length := ⟨_, rfl⟩
  have hwords : ∀ u ∈ ws, IsWord u := by
    intro u hu
    rw [hws] at hu
    exact (Analysis.Grams.mem_words_glob (List.mem_of_mem_filter hu)).1
  -- leaving out words without grams moves none of the others
  have hphrase : HasPhrase ws (Glob.words pattern) := by
    rw [hws]
    exact Analysis.Grams.hasPhrase_filter _
  have hlower : ∀ c ∈ joined ws, Text.lowerChar c = [c] := fun c hc =>
    Analysis.Grams.lowerChar_of_mem_joined hwords hc
  refine ⟨_, shows_joined ht hplain hlong hwords hphrase, ?_, ?_⟩
  · rw [text_event, Text.lower, String.toList_ofList, String.toList_ofList, Text.lowerAfter_eq_self hlower,
      Text.lowerEach_eq_self hlower]
  · rw [text_event, String.toList_ofList, Analysis.Grams.words_joined hwords, hws]

/-- The identifier that has two words of the pattern as one, with the character that they have in common, is
shown. -/
theorem exists_shows_glued (hlong : ∀ u ∈ Glob.words pattern, gramSize ≤ u.length) {front back : List (List Char)}
    {u v : List Char} {c : Char} (hsplit : Glob.words pattern = front ++ (u ++ [c]) :: (c :: v) :: back) :
    ∃ e, (t.filter pattern).Shows e ∧ words (t.text e).toList = front ++ (u ++ c :: v) :: back := by
  have hwords : ∀ w ∈ front ++ (u ++ [c]) :: (c :: v) :: back, IsWord w :=
    fun w hw => (Analysis.Grams.mem_words_glob (hsplit ▸ hw)).1
  rw [hsplit] at hlong
  simp only [List.forall_mem_append, List.forall_mem_cons] at hwords hlong
  obtain ⟨hfront, hu, hv, hback⟩ := hwords
  obtain ⟨-, hulong, hvlong, -⟩ := hlong
  -- glued at the character they share, two words are a word
  have hglued : ∀ w ∈ front ++ (u ++ c :: v) :: back, IsWord w :=
    List.forall_mem_append.2 ⟨hfront, List.forall_mem_cons.2 ⟨hu.glue hv, hback⟩⟩
  have hphrase : HasPhrase (front ++ (u ++ c :: v) :: back) (Glob.words pattern) := by
    rw [hsplit]
    exact Analysis.Grams.hasPhrase_glued hulong hvlong
  have hsome : ∃ w ∈ Glob.words pattern, gramSize ≤ w.length := by
    rw [hsplit]
    exact ⟨u ++ [c], List.mem_append_right _ List.mem_cons_self, hulong⟩
  refine ⟨_, shows_joined ht hplain hsome hglued hphrase, ?_⟩
  rw [text_event, String.toList_ofList, Analysis.Grams.words_joined hglued]

end Identifiers

/-- The words of the patterns and identifiers below. -/
theorem words_examples :
    Glob.words "Router te" = ["router".toList, "te".toList] ∧
      Glob.words "rou xy" = ["rou".toList, "xy".toList] ∧
      Glob.words "Core Router" = ["core".toList, "router".toList] ∧
      Glob.words "abc cde" = ["abc".toList, "cde".toList] ∧
      words "xcore router".toList = ["xcore".toList, "router".toList] ∧
      words "abcde".toList = ["abcde".toList] ∧ words "router".toList = ["router".toList] ∧
      lowerEach "router".toList = "router".toList ∧ (Text.lower "router").toList = "router".toList := by
  decide +kernel

/-! ### All words of a pattern -/

/-- **What is contained.** A pattern without wildcards that is not blank shows events whose identifier, lower-cased
character by character, contains its words that are long enough for a gram; if it has none, events whose
identifier, lower-cased as a whole, contains all its words. So it shows only events whose identifier contains all its
words, in lower case in one way or the other, if and only if none of them is long enough, or each is a piece of
one that is. -/
theorem shown_contains (ht : t ≠ summary) (hplain : Glob.hasWildcard pattern.toList = false)
    (hname : ∃ c ∈ pattern.toList, Text.isBlank c = false) :
    (∀ e, (t.filter pattern).Shows e →
      (∀ w ∈ Glob.words pattern, gramSize ≤ w.length → w <:+: lowerEach (t.text e).toList) ∧
      ((∀ w ∈ Glob.words pattern, w.length < gramSize) →
        ∀ w ∈ Glob.words pattern, w <:+: (Text.lower (t.text e)).toList)) ∧
    ((∀ e, (t.filter pattern).Shows e → ∀ w ∈ Glob.words pattern,
        w <:+: lowerEach (t.text e).toList ∨ w <:+: (Text.lower (t.text e)).toList) ↔
      (∀ w ∈ Glob.words pattern, w.length < gramSize) ∨
      ∀ w ∈ Glob.words pattern, ∃ u ∈ Glob.words pattern,
        gramSize ≤ u.length ∧ w <:+: u) := by
  -- without grams the pattern is looked for as a whole, and its words are pieces of it
  have hwhole : ∀ e, (t.filter pattern).Shows e → (∀ w ∈ Glob.words pattern, w.length < gramSize) →
      ∀ w ∈ Glob.words pattern, w <:+: (Text.lower (t.text e)).toList := by
    intro e he hshort w hw
    obtain ⟨-, hpiece⟩ := Analysis.Grams.mem_words_glob hw
    exact hpiece.trans (normalize_infix_of_shows ht hplain hname hshort he)
  refine ⟨fun e he => ⟨fun w hw hlong => infix_of_shows ht hplain he hw hlong, hwhole e he⟩, ?_, ?_⟩
  · intro hall
    refine or_iff_not_imp_left.2 fun hshort w hw => ?_
    have hlong : ∃ w ∈ Glob.words pattern, gramSize ≤ w.length := by
      simpa only [not_forall, Nat.not_lt, exists_prop] using hshort
    -- what the identifier of the long words contains is a piece of one of them
    obtain ⟨e, he, hlower, hwords⟩ := exists_shows_long ht hplain hlong
    have hcontained := hall e he w hw
    obtain ⟨hword, -⟩ := Analysis.Grams.mem_words_glob hw
    rw [hlower, or_self, Analysis.Grams.infix_lowerEach_iff hword.ne_nil hword.unbroken] at hcontained
    obtain ⟨u, hu, hpiece⟩ := hcontained
    rw [hwords, List.mem_filter, decide_eq_true_eq] at hu
    exact ⟨u, hu.1, hu.2, hpiece⟩
  · rintro (hshort | hpieces) e he w hw
    · exact .inr (hwhole e he hshort w hw)
    · obtain ⟨u, hu, hlong, hpiece⟩ := hpieces w hw
      exact .inl (hpiece.trans (infix_of_shows ht hplain he hu hlong))

/-- A short word that is a piece of a long one is contained with it. -/
theorem shown_contains_te :
    (element.filter "Router te").Shows (element.event "router") ∧
      ∀ w ∈ Glob.words "Router te", w <:+: lowerEach "router".toList ∨
        w <:+: (Text.lower "router").toList := by
  obtain ⟨hpattern, -, -, -, -, -, htext, -⟩ := words_examples
  have hlong : ∃ w ∈ Glob.words "Router te", gramSize ≤ w.length := by
    rw [hpattern]
    decide
  have hshows : (element.filter "Router te").Shows (element.event "router") := by
    rw [shows_iff_hasPhrase (by decide) (by decide) hlong, text_event, htext, hpattern]
    exact ⟨0, by decide⟩
  have hpieces : ∀ w ∈ Glob.words "Router te", ∃ u ∈ Glob.words "Router te",
      gramSize ≤ u.length ∧ w <:+: u := by
    rw [hpattern]
    decide
  obtain ⟨-, hall⟩ := @shown_contains .element "Router te" (by decide) (by decide)
    ⟨'R', by decide, Text.isBlank_of_visible (by decide) (by decide)⟩
  exact ⟨hshows, hall.2 (.inr hpieces) _ hshows⟩

/-- A short word that is none is not looked for. -/
theorem shown_contains_xy :
    (element.filter "rou xy").Shows (element.event "router") ∧
      ∃ w ∈ Glob.words "rou xy", ¬ (w <:+: lowerEach "router".toList ∨
        w <:+: (Text.lower "router").toList) := by
  obtain ⟨-, hpattern, -, -, -, -, htext, heach, hlower⟩ := words_examples
  constructor
  · have hlong : ∃ w ∈ Glob.words "rou xy", gramSize ≤ w.length := by
      rw [hpattern]
      decide
    rw [shows_iff_hasPhrase (by decide) (by decide) hlong, text_event, htext, hpattern]
    exact ⟨0, by decide⟩
  · rw [hpattern, heach, hlower]
    exact ⟨"xy".toList, by decide, by decide⟩

/-! ### The words of a pattern in order -/

theorem length_le_of_sublistForall₂ {α β : Type} {R : α → β → Prop} {as : List α} {bs : List β}
    (h : List.SublistForall₂ R as bs) : as.length ≤ bs.length := by
  obtain ⟨found, hfound, hsublist⟩ := List.sublistForall₂_iff.1 h
  rw [hfound.length_eq]
  exact hsublist.length_le

/-- **Words in order.** A pattern without wildcards whose words are all long enough for a gram shows only events whose
identifier contains them in words of their own, in the same order, if and only if none of them begins with the last
character of the one before. -/
theorem shown_in_order (ht : t ≠ summary) (hplain : Glob.hasWildcard pattern.toList = false)
    (hne : Glob.words pattern ≠ []) (hlong : ∀ u ∈ Glob.words pattern, gramSize ≤ u.length) :
    (∀ e, (t.filter pattern).Shows e → List.SublistForall₂ (fun u w => u <:+: w)
        (Glob.words pattern) (words (t.text e).toList)) ↔
      (Glob.words pattern).IsChain fun u v => u.getLast? ≠ v.head? := by
  constructor
  · intro horder
    rw [List.isChain_iff_forall_rel_of_append_cons_cons]
    intro u v front back hsplit hsame
    -- the second word begins with the last character of the first
    have hu : u ∈ Glob.words pattern := hsplit ▸ List.mem_append_right _ List.mem_cons_self
    have hv : v ∈ Glob.words pattern :=
      hsplit ▸ List.mem_append_right _ (List.mem_cons_of_mem _ List.mem_cons_self)
    obtain ⟨u, c, rfl⟩ := (List.eq_nil_or_concat u).resolve_left (Analysis.Grams.mem_words_glob hu).1.ne_nil
    obtain ⟨d, v, rfl⟩ := List.exists_cons_of_ne_nil (Analysis.Grams.mem_words_glob hv).1.ne_nil
    rw [List.concat_eq_append, List.getLast?_concat] at hsame
    obtain rfl : c = d := Option.some.inj hsame
    rw [List.concat_eq_append] at hsplit
    obtain ⟨e, he, hwords⟩ := exists_shows_glued ht hplain hlong hsplit
    -- but the identifier that has both as one has one word less than the pattern
    have horder := horder e he
    rw [hwords, hsplit] at horder
    have hlength := length_le_of_sublistForall₂ horder
    simp only [List.length_append, List.length_cons] at hlength
    omega
  · intro hapart e he
    obtain ⟨w, hw⟩ := List.exists_mem_of_ne_nil _ hne
    have hphrase := (shows_iff_hasPhrase ht hplain ⟨w, hw, hlong w hw⟩).1 he
    obtain ⟨p, hstands⟩ := Analysis.Grams.hasPhrase_iff.1 hphrase
    exact Analysis.Grams.sublistForall₂_words hlong hapart hstands

/-- Two words that are found in two words. -/
theorem shown_in_order_core :
    (element.filter "Core Router").Shows (element.event "xcore router") ∧
      List.SublistForall₂ (fun u w => u <:+: w) (Glob.words "Core Router")
        (words "xcore router".toList) := by
  obtain ⟨-, -, hpattern, -, htext, -⟩ := words_examples
  have hlong : ∀ u ∈ Glob.words "Core Router", gramSize ≤ u.length := by
    rw [hpattern]
    decide
  have hshows : (element.filter "Core Router").Shows (element.event "xcore router") := by
    have hsome : ∃ w ∈ Glob.words "Core Router", gramSize ≤ w.length := by
      rw [hpattern]
      decide
    rw [shows_iff_hasPhrase (by decide) (by decide) hsome, text_event, htext, hpattern]
    exact ⟨1, by decide⟩
  have hapart : (Glob.words "Core Router").IsChain fun u v => u.getLast? ≠ v.head? := by
    rw [hpattern]
    decide
  exact ⟨hshows, (shown_in_order (by decide) (by decide) (by rw [hpattern]; decide) hlong).2 hapart _ hshows⟩

/-- Two words that are found in one. -/
theorem shown_in_order_glued :
    (element.filter "abc cde").Shows (element.event "abcde") ∧
      ¬ List.SublistForall₂ (fun u w => u <:+: w) (Glob.words "abc cde") (words "abcde".toList) := by
  obtain ⟨-, -, -, hpattern, -, htext, -⟩ := words_examples
  constructor
  · have hsome : ∃ w ∈ Glob.words "abc cde", gramSize ≤ w.length := by
      rw [hpattern]
      decide
    rw [shows_iff_hasPhrase (by decide) (by decide) hsome, text_event, htext, hpattern]
    exact ⟨0, by decide⟩
  · rw [hpattern, htext]
    exact fun horder => absurd (length_le_of_sublistForall₂ horder) (by decide)

end EventCatalog.SearchedText
