import EventCatalog.Proofs.TextPatterns

/-!
# Searching identifiers by a fragment

A pattern without wildcards is cut into grams as identifiers are, and an identifier has to have these grams
at the same distances from each other. If the pattern is one word of three characters or more, it is found
in exactly the identifiers that contain it, all in lower case (`Catalog.list_fragment`).
-/

namespace EventCatalog

open Analysis (gramSize grams)
open Analysis.Grams (shingles spelled words)

/-- **A pattern of one word** looks for its grams, all moved alike. -/
theorem Query.exists_ofPattern (target : PatternTarget) {field pattern : String}
    (hkeyword : ∃ f, fieldNamed .events target.keyword = .ok f) (htarget : target.analyzed = some field)
    (hfield : fieldNamed .events field = .ok (.analyzed field .grams))
    (hglob : Glob.hasWildcard pattern.toList = false)
    (hword : ∀ c ∈ Glob.normalize pattern, Text.isBlank c = false)
    (hlength : gramSize ≤ (Glob.normalize pattern).length) :
    ∃ q, ofPattern .events target pattern = .ok (some q) ∧ ∀ d : Document,
      q.selects .events d = true ↔
        ∃ p, ∀ x ∈ shingles p (Glob.normalize pattern), x ∈ textTokens .events d field := by
  -- the pattern is its own only word
  have hgrams : spelled (words (Glob.normalize pattern)) = shingles 0 (Glob.normalize pattern) := by
    have hne : Glob.normalize pattern ≠ [] := List.ne_nil_of_length_pos (Nat.lt_of_lt_of_le (by decide) hlength)
    rw [Analysis.Grams.words_eq_pieces fun c hc => Glob.lowerChar_of_mem_normalize hc,
      Analysis.Grams.pieces_eq_singleton hne hword, Analysis.Grams.spelled_singleton hlength]
  have hterms : terms pattern ≠ [] := by
    obtain ⟨g, rest, hfirst⟩ := Analysis.Grams.exists_shingles_eq_cons 0 hlength
    rw [terms, hgrams, hfirst]
    exact List.cons_ne_nil _ _
  refine ⟨_, ofPattern_of_terms hkeyword htarget hfield hglob hterms, fun d => ?_⟩
  rw [selects_ofTerms_iff hterms, hgrams]
  refine exists_congr fun p => ?_
  have hmoved := Analysis.Grams.shingles_add p 0 (Glob.normalize pattern)
  rw [Nat.add_zero] at hmoved
  rw [hmoved, List.forall_mem_map]

/-! ### Identifiers -/

namespace Event

/-- What is indexed of the identifier of the element. -/
theorem textTokens_element (e : Event) :
    Query.textTokens .events (.ofEvent e) Field.element = spelled (words e.element.toList) :=
  SearchedText.textTokens_field (t := .element) (by decide) e

/-- What is indexed of the identifier of the part; an empty one is left out, and has no grams. -/
theorem textTokens_subElement (e : Event) :
    Query.textTokens .events (.ofEvent e) Field.subElement = spelled (words e.subElement.toList) :=
  SearchedText.textTokens_field (t := .subElement) (by decide) e

end Event

/-- A filter for one pattern of one word selects the events whose text contains it. -/
theorem Filter.selects_fragment {f : Filter} (target : PatternTarget) {field pattern : String}
    {text : Event → String} (hclauses : f.clauses = [.pattern target pattern])
    (hkeyword : ∃ f, Query.fieldNamed .events target.keyword = .ok f) (htarget : target.analyzed = some field)
    (hfield : Query.fieldNamed .events field = .ok (.analyzed field .grams))
    (htokens : ∀ e, Query.textTokens .events (.ofEvent e) field = spelled (words (text e).toList))
    (hglob : Glob.hasWildcard pattern.toList = false)
    (hword : ∀ c ∈ Glob.normalize pattern, Text.isBlank c = false)
    (hlength : gramSize ≤ (Glob.normalize pattern).length) :
    f.Selects fun e => Glob.normalize pattern <:+: Text.lowerEach (text e).toList := by
  obtain ⟨q, hq, hselects⟩ := Query.exists_ofPattern target hkeyword htarget hfield hglob hword hlength
  have hclause : Query.ofClause .events (.pattern target pattern) = .ok (some q) := hq
  refine ⟨q, ?_, fun e => ?_⟩
  · rw [Query.ofFilter, hclauses, Query.ofClauses_singleton hclause]
  -- the grams of one word, all moved alike, spell the word itself
  · rw [hselects, htokens, Analysis.Grams.spelled_iff hlength hword]

namespace Catalog

/-- **A fragment finds every identifier that contains it, and nothing else.** A pattern without wildcards
that is one word of three characters or more, trimmed and in lower case, selects the events whose identifier
contains it, lower-cased character by character; and so does the identifier of the part. These events are
what a list of the filter shows, whatever the sort and the page. -/
theorem list_fragment {pattern : String} (hglob : Glob.hasWildcard pattern.toList = false)
    (hword : ∀ c ∈ Glob.normalize pattern, Text.isBlank c = false)
    (hlength : 3 ≤ (Glob.normalize pattern).length) :
    (Filter.Selects { element := some pattern }
      fun e => Glob.normalize pattern <:+: Text.lowerEach e.element.toList) ∧
    (Filter.Selects { subElement := some pattern }
      fun e => Glob.normalize pattern <:+: Text.lowerEach e.subElement.toList) ∧
    ∀ c : Catalog, c.HoldsEvents → ∀ sort,
      (∃ found : List Event,
        found.Perm (c.visible.filter fun e =>
          Glob.normalize pattern <:+: Text.lowerEach e.element.toList) ∧
        ∀ limit offset, c.list ⟨some { element := some pattern }, sort, limit, offset⟩ =
          .ok (Request.pageOf ⟨some { element := some pattern }, sort, limit, offset⟩
            c.config.maxResults found)) ∧
      ∃ found : List Event,
        found.Perm (c.visible.filter fun e =>
          Glob.normalize pattern <:+: Text.lowerEach e.subElement.toList) ∧
        ∀ limit offset, c.list ⟨some { subElement := some pattern }, sort, limit, offset⟩ =
          .ok (Request.pageOf ⟨some { subElement := some pattern }, sort, limit, offset⟩
            c.config.maxResults found) := by
  have helement : Filter.Selects { element := some pattern }
      fun e => Glob.normalize pattern <:+: Text.lowerEach e.element.toList :=
    Filter.selects_fragment .element (by simp [Filter.clauses, Filter.anyOf]) ⟨_, rfl⟩ rfl rfl
      Event.textTokens_element hglob hword hlength
  have hsubElement : Filter.Selects { subElement := some pattern }
      fun e => Glob.normalize pattern <:+: Text.lowerEach e.subElement.toList :=
    Filter.selects_fragment .subElement (by simp [Filter.clauses, Filter.anyOf]) ⟨_, rfl⟩ rfl rfl
      Event.textTokens_subElement hglob hword hlength
  exact ⟨helement, hsubElement, fun c hc sort => ⟨helement.list hc sort, hsubElement.list hc sort⟩⟩

/-- An event of an element. -/
def elementDown (n : Nat) (element : String) : Event :=
  .raise (.ofNat n) .epoch element "/Status" "down" .warning

/-- Of two identifiers, one contains the fragment in other letters. -/
theorem list_fragment_router :
    ∃ c, openDirectory "events" .default
        (.index (indexOf [elementDown 1 "Core-Router 01", elementDown 2 "edge-switch 02"])) false = .ok c ∧
      c.list { filter := some { element := some " ROUT" } } = .ok {
        events := [elementDown 1 "Core-Router 01"]
        total := 1, limit := 100, nextOffset := none } := by
  obtain ⟨c, hopen⟩ : ∃ c, openDirectory "events" .default
      (.index (indexOf [elementDown 1 "Core-Router 01", elementDown 2 "edge-switch 02"])) false = .ok c :=
    ⟨_, rfl⟩
  have hvisible : c.visible = [elementDown 1 "Core-Router 01", elementDown 2 "edge-switch 02"] := by
    refine visible_eq_of_documents ?_
    cases hopen
    rfl
  have hpattern : Glob.normalize " ROUT" = ['r', 'o', 'u', 't'] := by decide +kernel
  have hword : (Glob.normalize " ROUT").all (fun c => !Text.isBlank c) = true := by
    rw [hpattern]
    decide +kernel
  obtain ⟨-, -, hlists⟩ := @list_fragment " ROUT" (by decide)
    (fun c hc => by simpa using List.all_eq_true.1 hword c hc) (by rw [hpattern]; decide)
  obtain ⟨⟨found, hperm, hlist⟩, -⟩ := hlists c (ofEvents_indexOf hopen).holdsEvents []
  -- of the two identifiers only the first contains it in lower case
  have hcontaining : (c.visible.filter fun e =>
      Glob.normalize " ROUT" <:+: Text.lowerEach e.element.toList) = [elementDown 1 "Core-Router 01"] := by
    rw [hvisible, hpattern]
    decide +kernel
  rw [hcontaining, List.perm_singleton] at hperm
  refine ⟨c, hopen, ?_⟩
  rw [hlist none none, hperm]
  cases hopen
  rfl

end Catalog

end EventCatalog
