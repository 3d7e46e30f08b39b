import EventCatalog.Proofs.Exploration
import EventCatalog.Proofs.TextPatterns

/-!
# Searching texts by a piece

A pattern between two stars asks for the texts that contain it. It is matched against the text in lower case as a
whole, and its stars stand for runs of characters without a line feed. So a piece of a text finds this text if it
has all the line feeds of the text (`Catalog.list_starred`), as every piece has in a text of one line. A text of two
lines is not found by a word of one of them (`Catalog.list_starred_missing`).
-/

namespace EventCatalog

namespace Glob

variable {p s : List Char}

/-- The pattern for what contains a piece. -/
def starred (p : List Char) : String := String.ofList ('*' :: p ++ ['*'])

/-- **The pattern is matched as it is**, if the piece is in lower case. -/
theorem normalize_starred (hp : ∀ c ∈ p, Text.lowerChar c = [c]) :
    normalize (starred p) = '*' :: p ++ ['*'] := by
  have hstar : Text.isBlank '*' = false := Text.isBlank_of_visible (by decide) (by decide)
  -- the stars are no blanks, so nothing is trimmed
  have htrim : Text.trim ('*' :: p ++ ['*']) = '*' :: p ++ ['*'] := by
    unfold Text.trim Text.trimStart
    rw [List.cons_append, List.dropWhile_cons_of_neg (by rw [hstar]; decide), ← List.cons_append,
      List.reverse_append, List.reverse_singleton, List.singleton_append,
      List.dropWhile_cons_of_neg (by rw [hstar]; decide), List.reverse_cons, List.reverse_reverse]
  rw [normalize, Text.lower, starred, String.toList_ofList, String.toList_ofList, String.toList_ofList, htrim]
  refine Text.lowerAfter_eq_self fun c hc => ?_
  have hlower : Text.lowerChar '*' = ['*'] := Text.lowerChar_ascii (by decide)
  simp only [List.cons_append, List.mem_cons, List.mem_append, List.not_mem_nil, or_false] at hc
  rcases hc with rfl | hc | rfl
  · exact hlower
  · exact hp c hc
  · exact hlower

end Glob

/-- A piece of a text in lower case is in lower case. -/
theorem Text.lowerChar_of_infix_lower {s : String} {p : List Char} (h : p <:+: (lower s).toList) :
    ∀ c ∈ p, lowerChar c = [c] := by
  intro c hc
  have hmem := h.subset hc
  rw [lower, String.toList_ofList] at hmem
  exact lowerChar_of_mem_lowerAfter hmem

/-- A piece between two stars is to be contained in the text as a whole. -/
theorem Query.ofPattern_starred {target : PatternTarget} {p : List Char}
    (hkeyword : ∃ f, fieldNamed .events target.keyword = .ok f) (hplain : Glob.hasWildcard p = false)
    (hlower : ∀ c ∈ p, Text.lowerChar c = [c]) :
    ofPattern .events target (Glob.starred p) = some <$> ofRegex target.keyword (Regex.containing p) := by
  have hne : (Glob.normalize (Glob.starred p)).isEmpty = false := by
    rw [Glob.normalize_starred hlower]
    rfl
  have hwildcard : Glob.hasWildcard (Glob.normalize (Glob.starred p)) = true := by
    rw [Glob.normalize_starred hlower]
    rfl
  obtain ⟨f, hf⟩ := hkeyword
  unfold ofPattern
  simp only [hne, hf, hwildcard, bind, Except.bind, Bool.false_eq_true, if_false, if_true]
  -- the two stars become runs of any characters around the piece
  rw [Glob.normalize_starred hlower, Glob.toRegex_starred hplain]
  cases ofRegex target.keyword (Regex.containing p) <;> rfl

namespace Catalog

/-- **A piece of a text finds it** if it has all the line feeds of the text. A pattern of a piece of a text of a
visible event, in lower case and without wildcards, between two stars is refused if its automaton is too large. If it
is not, the event is among those that the lists of the filter show, whatever the sort and the page, if and only if the
piece has as many line feeds as the text, and the text in lower case is short enough to be indexed as a whole. -/
theorem list_starred {c : Catalog} (hc : c.HoldsEvents) {e : Event} (he : e ∈ c.visible) (t : SearchedText)
    {p : List Char} (hne : p ≠ []) (hplain : Glob.hasWildcard p = false)
    (hpiece : p <:+: (Text.lower (t.text e)).toList) (sort : List SortBy) :
    ((Regex.containing p).isTooLarge = true ∧ ∀ limit offset,
      c.list ⟨some (t.filter (Glob.starred p)), sort, limit, offset⟩ =
        .error ⟨.queryBuilding, .badPattern (Regex.containing p).render⟩) ∨
    ((Regex.containing p).isTooLarge = false ∧ ∃ found : List Event,
      (e ∈ found ↔ p.count '\n' = (t.text e).toList.count '\n' ∧ t.IsIndexedWhole e) ∧
      ∀ limit offset, c.list ⟨some (t.filter (Glob.starred p)), sort, limit, offset⟩ =
        .ok (Request.pageOf ⟨some (t.filter (Glob.starred p)), sort, limit, offset⟩
          c.config.maxResults found)) := by
  have hquery := Query.ofPattern_starred t.exists_keyword hplain (Text.lowerChar_of_infix_lower hpiece)
  cases hsize : (Regex.containing p).isTooLarge with
  | true =>
    exact .inl ⟨rfl, fun limit offset => list_error hc (t.refuses_containing hquery hsize)⟩
  | false =>
    obtain ⟨found, hfound, hlist⟩ := (SearchedText.selects_containing hquery hne hsize).mem_list hc he sort
    refine .inr ⟨rfl, found, ?_, hlist⟩
    -- a line feed has no case, so the text has as many of them as it is written
    have hfeed : (Text.lower (t.text e)).toList.count '\n' = (t.text e).toList.count '\n' := by
      rw [Text.lower, String.toList_ofList]
      exact (Text.isCaseless_of_lt (by decide)).count_lowerAfter
    rw [hfound, Glob.standsIn_iff, and_iff_right hpiece, hfeed]
    exact And.comm

/-- An event of two lines. -/
def diskFull : Event := SearchedText.summary.event "Disk full\non /var"

/-- Its summary in lower case, and two patterns that are small enough. -/
theorem lower_diskFull :
    (Text.lower diskFull.summary).toList = "disk full\non /var".toList ∧
      (Regex.containing "l\no".toList).isTooLarge = false ∧
      (Regex.containing "disk".toList).isTooLarge = false := by
  rw [Regex.isTooLarge_eq, Regex.isTooLarge_eq]
  decide +kernel

/-- A piece across the line feed finds the event. -/
theorem list_starred_across :
    ∃ c, openDirectory "events" .default (.index (indexOf [diskFull])) false = .ok c ∧
      diskFull ∈ c.visible ∧ ∃ found : List Event, diskFull ∈ found ∧ ∀ limit offset,
        c.list ⟨some { summary := some "*l\no*" }, [], limit, offset⟩ =
          .ok (Request.pageOf ⟨some { summary := some "*l\no*" }, [], limit, offset⟩
            c.config.maxResults found) := by
  obtain ⟨c, hopen, hc, hvisible, -⟩ := exists_visible [diskFull]
  obtain ⟨hlower, hsmall, -⟩ := lower_diskFull
  have he : diskFull ∈ c.visible := by
    rw [hvisible]
    exact List.mem_singleton_self _
  have hpiece : "l\no".toList <:+: (Text.lower diskFull.summary).toList := by
    rw [hlower]
    decide
  have hwhole : SearchedText.summary.IsIndexedWhole diskFull := by
    change Analysis.byteLength (Text.lower diskFull.summary).toList ≤ _
    rw [hlower]
    decide
  refine ⟨c, hopen, he, ?_⟩
  rcases list_starred hc he .summary (by decide) (by decide) hpiece [] with
    ⟨hlarge, -⟩ | ⟨-, found, hfound, hlist⟩
  · exact nomatch hsmall.symm.trans hlarge
  · exact ⟨found, hfound.2 ⟨by decide, hwhole⟩, hlist⟩

/-- A word of the first line does not. -/
theorem list_starred_missing :
    ∃ c, openDirectory "events" .default (.index (indexOf [diskFull])) false = .ok c ∧
      diskFull ∈ c.visible ∧ "disk".toList <:+: (Text.lower diskFull.summary).toList ∧
      c.list { filter := some { summary := some "*disk*" } } =
        .ok { events := [], total := 0, limit := 100, nextOffset := none } := by
  obtain ⟨c, hopen, hc, hvisible, hconfig⟩ := exists_visible [diskFull]
  obtain ⟨hlower, -, hsmall⟩ := lower_diskFull
  have hpiece : "disk".toList <:+: (Text.lower diskFull.summary).toList := by
    rw [hlower]
    decide
  have hquery := Query.ofPattern_starred SearchedText.summary.exists_keyword (by decide)
    (Text.lowerChar_of_infix_lower hpiece)
  have hselects := SearchedText.selects_containing hquery (by decide) hsmall
  -- the piece has no line feed, and the text has one
  have hnone : ∀ e ∈ c.visible, ¬ (SearchedText.summary.IsIndexedWhole e ∧
      Glob.StandsIn "disk".toList (Text.lower (SearchedText.summary.text e)).toList) := by
    rw [hvisible, List.forall_mem_singleton]
    rintro ⟨-, hstands⟩
    change Glob.StandsIn _ (Text.lower diskFull.summary).toList at hstands
    rw [hlower, Glob.standsIn_iff] at hstands
    exact absurd hstands.2 (by decide)
  have hshown := hselects.list_nil hc hnone [] none none
  rw [hconfig] at hshown
  refine ⟨c, hopen, ?_, hpiece, hshown⟩
  rw [hvisible]
  exact List.mem_singleton_self _

end Catalog

end EventCatalog
