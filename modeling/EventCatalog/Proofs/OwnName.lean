import EventCatalog.Proofs.FinalSigma
import EventCatalog.Proofs.TextPatterns

/-!
# Searching an element by its own name

The identifier of an element can be asked for as it is written. Both sides put it in lower case, but not in the same
way: what is indexed is put so character by character, and a pattern as a whole, which makes a final sigma of a capital
sigma at the end of a word. Both ways lead to words of the same lengths, which leaves no room for finding a
word anywhere but where it stands (`Analysis.Grams.hasPhrase_map_iff`). So an identifier with a word that is long
enough for a gram finds itself if and only if none of these words takes a final sigma
(`Analysis.Grams.hasPhrase_glob`).

An identifier of short words is looked for in itself as a whole, and there both sides are put in lower case
in the same way. It finds itself if it is short enough to be indexed as a whole, unless its automaton is too
large. Both cases are put together in `Catalog.list_own_name`.
-/

namespace EventCatalog

open Analysis (gramSize)
open Analysis.Grams (HasPhrase words pieces)
open Text (lowerAfter lowerEach TakesFinalSigma)

/-- A word that is long enough for a gram is so in whatever way it is put in lower case. -/
theorem Analysis.Grams.exists_long_glob {name : String}
    (hlong : ∃ w ∈ pieces name.toList, gramSize ≤ (lowerEach w).length) :
    ∃ w ∈ Glob.words name, gramSize ≤ w.length := by
  obtain ⟨w, hw, hlength⟩ := hlong
  rw [words_glob]
  exact ⟨_, List.mem_map_of_mem hw, by rwa [Text.length_lowerAfter]⟩

/-- **The words of a name** are found among themselves if none of those with grams takes a final sigma. -/
theorem Analysis.Grams.hasPhrase_glob {name : String}
    (hlong : ∃ w ∈ pieces name.toList, gramSize ≤ (lowerEach w).length) :
    HasPhrase (words name.toList) (Glob.words name) ↔
      ∀ w ∈ pieces name.toList, gramSize ≤ (lowerEach w).length → ¬ TakesFinalSigma w := by
  rw [words_eq, words_glob, hasPhrase_map_iff fun w _ => Text.length_lowerAfter [] w]
  · simp only [Text.length_lowerAfter, Text.lowerAfter_eq_lowerEach_iff]
  · simpa only [Text.length_lowerAfter] using hlong

namespace SearchedText

/-- What it takes that the text of an event is found if it is asked for as it is written. -/
structure FindsItself (t : SearchedText) (e : Event) : Prop where
  /-- No word that is long enough for a gram takes a final sigma. -/
  long : ∀ w ∈ pieces (t.text e).toList, gramSize ≤ (lowerEach w).length → ¬ TakesFinalSigma w
  /-- A text without such words is short enough to be indexed as a whole. -/
  short : (∀ w ∈ pieces (t.text e).toList, (lowerEach w).length < gramSize) → t.IsIndexedWhole e

variable {t : SearchedText} {e : Event}

/-- A pattern has no grams if its words are too short for one, in whatever way they are put in lower case. -/
theorem terms_eq_nil {pattern : String}
    (hshort : ∀ w ∈ pieces pattern.toList, (lowerEach w).length < gramSize) : Query.terms pattern = [] := by
  rw [Query.terms, List.map_eq_nil_iff, Analysis.Grams.spelled_eq_nil_iff, Analysis.Grams.words_glob]
  intro w hw
  obtain ⟨v, hv, rfl⟩ := List.mem_map.1 hw
  rw [Text.length_lowerAfter]
  exact hshort v hv

/-- A text of one line has in it what is left of it when it is trimmed. -/
theorem standsIn_normalize (hline : '\n' ∉ (t.text e).toList) :
    Glob.StandsIn (Glob.normalize (t.text e)) (Text.lower (t.text e)).toList := by
  -- a line feed has no case
  have hlower : '\n' ∉ lowerAfter [] (t.text e).toList := by
    rwa [(Text.isCaseless_of_lt (by decide)).mem_lowerAfter]
  obtain ⟨front, back, hfront, hback, htext⟩ := Text.exists_trim (t.text e).toList
  have hsplit : lowerAfter [] (t.text e).toList =
      front ++ lowerAfter [] (Text.trim (t.text e).toList) ++ back := by
    conv => lhs; rw [htext]
    exact Text.lowerAfter_between hfront hback _
  rw [Glob.normalize, Text.lower, Text.lower, String.toList_ofList, String.toList_ofList, String.toList_ofList]
  rw [hsplit] at hlower ⊢
  exact ⟨front, back, rfl, fun h => hlower (List.mem_append_left _ (List.mem_append_left _ h)),
    fun h => hlower (List.mem_append_right _ h)⟩

end SearchedText

namespace Catalog

/-- **An element is found by its own name**, unless a capital sigma ends one of its words. The identifier of the
element of a visible event, or of its part, of one line that is not blank and has no wildcards, is asked for as it is
written. If no word of it is long enough for a gram, the filter is refused if its automaton is too large. Otherwise
the event is among those that the lists of the filter show, whatever the sort and the page, if and only if no
word that is long enough for a gram takes a final sigma, and, where there is no such word, the identifier in lower
case is short enough to be indexed as a whole. -/
theorem list_own_name {c : Catalog} (hc : c.HoldsEvents) {e : Event} (he : e ∈ c.visible) {t : SearchedText}
    (ht : t ≠ .summary) (hline : '\n' ∉ (t.text e).toList)
    (hname : ∃ ch ∈ (t.text e).toList, Text.isBlank ch = false)
    (hplain : Glob.hasWildcard (t.text e).toList = false) (sort : List SortBy) :
    ((∀ w ∈ pieces (t.text e).toList, (lowerEach w).length < gramSize) ∧
      (Regex.containing (Glob.normalize (t.text e))).isTooLarge = true ∧ ∀ limit offset,
      c.list ⟨some (t.filter (t.text e)), sort, limit, offset⟩ =
        .error ⟨.queryBuilding, .badPattern (Regex.containing (Glob.normalize (t.text e))).render⟩) ∨
    ∃ found : List Event, (e ∈ found ↔ t.FindsItself e) ∧ ∀ limit offset,
      c.list ⟨some (t.filter (t.text e)), sort, limit, offset⟩ =
        .ok (Request.pageOf ⟨some (t.filter (t.text e)), sort, limit, offset⟩ c.config.maxResults found) := by
  by_cases hshort : ∀ w ∈ pieces (t.text e).toList, (lowerEach w).length < gramSize
  -- short words are looked for in the text as a whole
  · have hne := Glob.normalize_ne_nil hname
    have hquery := Query.ofPattern_of_short t.exists_keyword t.analyzed_target
      (SearchedText.fieldNamed_field ht) hplain hne (SearchedText.terms_eq_nil hshort)
    cases hsize : (Regex.containing (Glob.normalize (t.text e))).isTooLarge with
    | true =>
      exact .inl ⟨hshort, rfl, fun limit offset => list_error hc (t.refuses_containing hquery hsize)⟩
    | false =>
      obtain ⟨found, hfound, hlist⟩ := (SearchedText.selects_containing hquery hne hsize).mem_list hc he sort
      refine .inr ⟨found, ?_, hlist⟩
      rw [hfound, and_iff_left (SearchedText.standsIn_normalize hline)]
      refine ⟨fun hwhole => ⟨fun w hw hlong => ?_, fun _ => hwhole⟩, fun h => h.short hshort⟩
      exact absurd (hshort w hw) (Nat.not_lt.2 hlong)
  -- others by their grams
  · have hlong : ∃ w ∈ pieces (t.text e).toList, gramSize ≤ (lowerEach w).length := by
      simpa only [not_forall, Nat.not_lt, exists_prop] using hshort
    obtain ⟨found, hfound, hlist⟩ := (SearchedText.selects_hasPhrase ht hplain
      (Analysis.Grams.exists_long_glob hlong)).mem_list hc he sort
    refine .inr ⟨found, ?_, hlist⟩
    rw [hfound, Analysis.Grams.hasPhrase_glob hlong]
    exact ⟨fun h => ⟨h, fun hnone => absurd hnone hshort⟩, fun h => h.long⟩

/-- An event of an element without Greek letters in its name. -/
def coreRouter : Event := SearchedText.element.event "Core-Router 01"

/-- A name without capital sigmas finds the element. -/
theorem list_own_name_router :
    ∃ c, openDirectory "events" .default (.index (indexOf [coreRouter])) false = .ok c ∧
      coreRouter ∈ c.visible ∧ ∃ found : List Event, coreRouter ∈ found ∧ ∀ limit offset,
        c.list ⟨some { element := some "Core-Router 01" }, [], limit, offset⟩ =
          .ok (Request.pageOf ⟨some { element := some "Core-Router 01" }, [], limit, offset⟩
            c.config.maxResults found) := by
  obtain ⟨c, hopen, hc, hvisible, -⟩ := exists_visible [coreRouter]
  have he : coreRouter ∈ c.visible := by
    rw [hvisible]
    exact List.mem_singleton_self _
  have hword : "Core-Router".toList ∈ pieces "Core-Router 01".toList := by
    have hwritten : "Core-Router 01".toList = "Core-Router".toList ++ ' ' :: "01".toList := rfl
    have hascii : ∀ c ∈ "Core-Router".toList, 0x21 ≤ c.toNat ∧ c.toNat ≤ 0x7E := by simp
    rw [hwritten, Analysis.Grams.pieces_append_cons _ Text.isBlank_space,
      Analysis.Grams.pieces_eq_singleton (by decide) fun c hc =>
        Text.isBlank_of_visible (hascii c hc).1 (hascii c hc).2]
    exact List.mem_cons_self
  have hlong : ¬ ∀ w ∈ pieces "Core-Router 01".toList, (lowerEach w).length < gramSize := by
    intro hshort
    exact absurd (Nat.lt_of_le_of_lt (Text.length_le_lowerEach _) (hshort _ hword)) (by decide)
  refine ⟨c, hopen, he, ?_⟩
  rcases list_own_name hc he (t := .element) (by decide) (by decide)
      ⟨'C', by decide, Text.isBlank_of_visible (by decide) (by decide)⟩ (by decide) [] with
    ⟨hshort, -⟩ | ⟨found, hfound, hlist⟩
  · exact absurd hshort hlong
  · refine ⟨found, hfound.2 ⟨fun w hw _ => ?_, fun hshort => absurd hshort hlong⟩, hlist⟩
    exact Text.not_takesFinalSigma fun h => absurd ((Analysis.Grams.mem_pieces hw).2.2.subset h) (by decide)

/-- An event of an element whose name ends with a capital sigma. -/
def odos : Event := SearchedText.element.event "ΟΔΟΣ"

/-- A capital sigma at the end of a word does. -/
theorem list_own_name_odos :
    ∃ c, openDirectory "events" .default (.index (indexOf [odos])) false = .ok c ∧
      odos ∈ c.visible ∧
      c.list { filter := some { element := some "ΟΔΟΣ" } } =
        .ok { events := [], total := 0, limit := 100, nextOffset := none } := by
  obtain ⟨c, hopen, hc, hvisible, hconfig⟩ := exists_visible [odos]
  have hpieces : pieces "ΟΔΟΣ".toList = ["ΟΔΟΣ".toList] := by decide +kernel
  have hlength : gramSize ≤ (lowerEach "ΟΔΟΣ".toList).length :=
    Nat.le_trans (by decide) (Text.length_le_lowerEach _)
  have hlong : ∃ w ∈ pieces "ΟΔΟΣ".toList, gramSize ≤ (lowerEach w).length :=
    ⟨_, by rw [hpieces]; exact List.mem_cons_self, hlength⟩
  have hselects := @SearchedText.selects_hasPhrase .element "ΟΔΟΣ" (by decide) (by decide)
    (Analysis.Grams.exists_long_glob hlong)
  -- the letter before the sigma is looked up in the tables as lists, which is faster to evaluate
  have hfinal : TakesFinalSigma "ΟΔΟΣ".toList := by
    have hignorable : Text.isCaseIgnorable 'Ο' = false := by
      rw [Text.isCaseIgnorable, Text.inRanges, ← Array.any_toList]
      decide +kernel
    refine ⟨"ΟΔΟ".toList, [], rfl, ?_, rfl⟩
    change Text.nearestIsCased ('Ο' :: _) = true
    rw [Text.nearestIsCased, hignorable]
    decide +kernel
  -- of the one word the last letter is a sigma with a letter before it
  have hnone : ∀ e ∈ c.visible, ¬ HasPhrase (words (SearchedText.element.text e).toList)
      (Glob.words "ΟΔΟΣ") := by
    rw [hvisible, List.forall_mem_singleton]
    intro hfound
    refine (Analysis.Grams.hasPhrase_glob hlong).1 hfound "ΟΔΟΣ".toList ?_ hlength hfinal
    rw [hpieces]
    exact List.mem_cons_self
  have hshown := hselects.list_nil hc hnone [] none none
  rw [hconfig] at hshown
  refine ⟨c, hopen, ?_, hshown⟩
  rw [hvisible]
  exact List.mem_singleton_self _

end Catalog

end EventCatalog
