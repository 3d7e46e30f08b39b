import EventCatalog.Proofs.Expressions
import EventCatalog.Proofs.Phrases
import EventCatalog.Proofs.Selection
import EventCatalog.Proofs.Visibility
import EventCatalog.Proofs.WrittenWords

/-!
# Patterns for the texts of events

A filter can ask for a pattern in the identifier of the element, in that of its part and in the summary
(`SearchedText`). What it finds depends on the way that the pattern takes.

An identifier is analyzed into grams. If a pattern without wildcards has a word that is long enough for a gram,
its words have to be found in the identifier by their grams, all moved alike
(`SearchedText.selects_hasPhrase`). A pattern of short words, and one between two stars, is looked for in the
text as a whole, in lower case; it is refused if its automaton is too large
(`SearchedText.refuses_containing`), and found where it stands with no line feed before or behind it
(`SearchedText.selects_containing`).

`Filter.Selects` says of a filter which events its query selects, which is all that a list of the filter
depends on (`Filter.Selects.list`). `Filter.Shows` says that some list of the filter shows an event; that is the
case if the filter finds it (`Filter.shows_iff`).
-/

namespace EventCatalog

open Analysis (gramSize grams)
open Analysis.Grams (HasPhrase spelled words)

/-! ### What a filter finds -/

namespace Filter

/-- The query of a filter can be built, and of the documents of events it selects those with a property. -/
def Selects (f : Filter) (P : Event → Prop) : Prop :=
  ∃ q, Query.ofFilter .events (some f) = .ok q ∧ ∀ e, q.selects .events (.ofEvent e) = true ↔ P e

/-- The query of a filter can be built, and selects the document of an event. -/
def Finds (f : Filter) (e : Event) : Prop :=
  ∃ q, Query.ofFilter .events (some f) = .ok q ∧ q.selects .events (.ofEvent e) = true

/-- Some list of a filter shows an event. -/
def Shows (f : Filter) (e : Event) : Prop :=
  ∃ c : Catalog, c.HoldsEvents ∧ ∃ sort limit offset page,
    c.list ⟨some f, sort, limit, offset⟩ = .ok page ∧ e ∈ page.events

variable {f : Filter} {P : Event → Prop} {e : Event}

/-- What a filter finds is what its query selects. -/
theorem Selects.finds_iff (h : f.Selects P) : f.Finds e ↔ P e := by
  obtain ⟨q, hq, hselects⟩ := h
  rw [← hselects]
  constructor
  · rintro ⟨q', hq', hfound⟩
    -- a filter has one query
    rwa [Except.ok.inj (hq.symm.trans hq')]
  · exact fun hfound => ⟨q, hq, hfound⟩

/-- **A list of a filter** shows the events that it selects. -/
theorem Selects.list [DecidablePred P] (h : f.Selects P) {c : Catalog} (hc : c.HoldsEvents)
    (sort : List SortBy) :
    ∃ found : List Event, found.Perm (c.visible.filter fun e => P e) ∧ ∀ limit offset,
      c.list ⟨some f, sort, limit, offset⟩ =
        .ok (Request.pageOf ⟨some f, sort, limit, offset⟩ c.config.maxResults found) := by
  obtain ⟨q, hq, hselects⟩ := h
  obtain ⟨found, hperm, hlist⟩ := Catalog.list_visible hc ⟨some f, sort, none, none⟩ hq
  refine ⟨found, ?_, hlist⟩
  have hselected : (c.visible.filter fun e => q.selects .events (.ofEvent e)) =
      c.visible.filter fun e => P e := by
    refine List.filter_congr fun e _ => ?_
    rw [Bool.eq_iff_iff, hselects, decide_eq_true_eq]
  rwa [hselected] at hperm

/-- A visible event is in the list of a filter that selects it. -/
theorem Selects.mem_list (h : f.Selects P) {c : Catalog} (hc : c.HoldsEvents) (he : e ∈ c.visible)
    (sort : List SortBy) :
    ∃ found : List Event, (e ∈ found ↔ P e) ∧ ∀ limit offset,
      c.list ⟨some f, sort, limit, offset⟩ =
        .ok (Request.pageOf ⟨some f, sort, limit, offset⟩ c.config.maxResults found) := by
  classical
  obtain ⟨found, hperm, hlist⟩ := h.list hc sort
  refine ⟨found, ?_, hlist⟩
  rw [hperm.mem_iff, List.mem_filter, decide_eq_true_eq]
  exact and_iff_right he

/-- A filter that selects none of the visible events has empty lists. -/
theorem Selects.list_nil (h : f.Selects P) {c : Catalog} (hc : c.HoldsEvents)
    (hnone : ∀ e ∈ c.visible, ¬ P e) (sort : List SortBy) (limit offset : Option Int) :
    c.list ⟨some f, sort, limit, offset⟩ =
      .ok (Request.pageOf ⟨some f, sort, limit, offset⟩ c.config.maxResults []) := by
  classical
  obtain ⟨found, hperm, hlist⟩ := h.list hc sort
  have hfound : (c.visible.filter fun e => P e) = [] :=
    List.filter_eq_nil_iff.2 fun e he => by simpa using hnone e he
  rw [hfound, List.perm_nil] at hperm
  rw [hlist, hperm]

/-- **What lists show** is what the filter finds. -/
theorem shows_iff : f.Shows e ↔ f.Finds e := by
  constructor
  · rintro ⟨c, hc, sort, limit, offset, page, hpage, he⟩
    cases hq : Query.ofFilter .events (some f) with
    | error err =>
      have hrefused := Catalog.list_error hc (r := ⟨some f, sort, limit, offset⟩) hq
      exact nomatch hrefused.symm.trans hpage
    | ok q =>
      obtain ⟨found, hperm, hlist⟩ := Catalog.list_visible hc ⟨some f, sort, none, none⟩ hq
      rw [hlist limit offset] at hpage
      obtain rfl := Except.ok.inj hpage
      -- a page is cut out of what was found, and only what is selected is found
      have hfound := hperm.mem_iff.1 (List.mem_of_mem_drop (List.mem_of_mem_take he))
      exact ⟨q, hq, (List.mem_filter.1 hfound).2⟩
  -- an index that holds nothing but the event
  · rintro ⟨q, hq, hselects⟩
    obtain ⟨c, -, hc, hvisible, hconfig⟩ := Catalog.exists_visible [e]
    obtain ⟨found, hperm, hlist⟩ := Catalog.list_visible hc ⟨some f, [], none, none⟩ hq
    have hselected : [e].filter (fun e => q.selects .events (.ofEvent e)) = [e] :=
      List.filter_cons_of_pos hselects
    rw [hvisible, hselected, List.perm_singleton] at hperm
    refine ⟨c, hc, [], none, none, _, hlist none none, ?_⟩
    rw [hconfig, hperm]
    exact List.mem_singleton_self e

end Filter

/-- The query of one clause is the query of the clauses. -/
theorem Query.ofClauses_singleton {cl : Clause} {q : Query}
    (h : Query.ofClause .events cl = .ok (some q)) : Query.ofClauses .events [cl] = .ok q := by
  unfold ofClauses
  rw [List.mapM_cons, h]
  rfl

/-! ### Grams as queries -/

namespace Document

/-- A phrase that begins at the position 0 is had wherever its terms are found, all moved alike. -/
theorem hasPhrase_iff {tokens : List (Nat × List Char)} {terms : List (Nat × String)} (hne : terms ≠ [])
    (hfirst : ∀ r ∈ terms.head?, r.1 = 0) :
    hasPhrase tokens terms = true ↔ ∃ p, ∀ r ∈ terms, (p + r.1, r.2.toList) ∈ tokens := by
  obtain ⟨⟨first, term⟩, rest, rfl⟩ := List.exists_cons_of_ne_nil hne
  obtain rfl : first = 0 := hfirst _ rfl
  simp only [hasPhrase, List.any_eq_true, Bool.and_eq_true, List.all_eq_true, beq_iff_eq, Nat.add_zero]
  constructor
  · rintro ⟨⟨p, text⟩, hmem, rfl, hrest⟩
    refine ⟨p, List.forall_mem_cons.2 ⟨hmem, fun r hr => ?_⟩⟩
    obtain ⟨⟨i, text⟩, hmem, rfl, rfl⟩ := hrest r hr
    exact hmem
  · rintro ⟨p, hterms⟩
    obtain ⟨hmem, hrest⟩ := List.forall_mem_cons.1 hterms
    -- the first term is at the position itself, and any other at its distance from there
    exact ⟨_, hmem, rfl, fun r hr => ⟨_, hrest r hr, rfl, rfl⟩⟩

/-- The grams of a text are all short enough to be indexed. -/
theorem tokensFrom_grams (s : String) :
    tokensFrom .grams 0 [s] = spelled (words s.toList) := by
  -- a gram has three characters, which are far fewer bytes than a token may have
  have hshort : ∀ t ∈ grams s.toList, Analysis.byteLength t.text ≤ maxTokenBytes := by
    intro t ht
    refine Nat.le_trans (Analysis.byteLength_le t.text) ?_
    rw [Analysis.Grams.length_text ht]
    decide
  rw [tokensFrom, tokensFrom, List.append_nil, Analyzer.tokens,
    List.filter_eq_self.2 fun t ht => decide_eq_true (hshort t ht), ← Analysis.Grams.map_grams]
  simp only [Nat.zero_add]

end Document

namespace Query

variable {schema : Schema} {d : Document} {target : PatternTarget} {field pattern : String}

/-- Grams as a query: one is a term, several are a phrase. -/
def ofTerms (field : String) : List (Nat × String) → Query
  | [(_, s)] => .term field (.text s)
  | terms => .phrase field terms

theorem selects_ofTerms (field : String) {terms : List (Nat × String)} (hne : terms ≠ []) :
    (ofTerms field terms).selects schema d = Document.hasPhrase (textTokens schema d field) terms := by
  match terms, hne with
  | [(i, s)], _ => simp [ofTerms, selects, Document.hasPhrase]
  | r₁ :: r₂ :: rest, _ => rfl

/-- The terms of a pattern are the grams of its words. -/
def terms (pattern : String) : List (Nat × String) :=
  (spelled (Glob.words pattern)).map fun g => (g.1, String.ofList g.2)

theorem analyze_normalize (field pattern : String) :
    analyze (.analyzed field .grams) (Glob.normalize pattern) = .ok (terms pattern) := by
  rw [terms, ← Analysis.Grams.map_grams, List.map_map]
  rfl

/-- **A pattern with grams** looks for them. -/
theorem ofPattern_of_terms (hkeyword : ∃ f, fieldNamed .events target.keyword = .ok f)
    (htarget : target.analyzed = some field) (hfield : fieldNamed .events field = .ok (.analyzed field .grams))
    (hglob : Glob.hasWildcard pattern.toList = false) (hterms : terms pattern ≠ []) :
    ofPattern .events target pattern = .ok (some (ofTerms field (terms pattern))) := by
  have hplain : Glob.hasWildcard (Glob.normalize pattern) = false := by
    rw [Glob.hasWildcard_normalize, hglob]
  have hne : Glob.normalize pattern ≠ [] := by
    intro hnil
    exact hterms (by rw [terms, Glob.words, hnil]; rfl)
  obtain ⟨f, hf⟩ := hkeyword
  unfold ofPattern
  simp only [List.isEmpty_eq_false_iff.2 hne, hf, hplain, htarget, hfield, analyze_normalize, bind, Except.bind,
    Bool.false_eq_true, if_false]
  -- one gram is built as a term and several as a phrase, and so is the query of the terms
  match hmatch : terms pattern, hterms with
  | [(_, _)], _ => rfl
  | _ :: _ :: _, _ => rfl

/-- **A pattern without grams** is to be contained in the text as a whole. -/
theorem ofPattern_of_short (hkeyword : ∃ f, fieldNamed .events target.keyword = .ok f)
    (htarget : target.analyzed = some field) (hfield : fieldNamed .events field = .ok (.analyzed field .grams))
    (hglob : Glob.hasWildcard pattern.toList = false) (hne : Glob.normalize pattern ≠ [])
    (hterms : terms pattern = []) :
    ofPattern .events target pattern =
      some <$> ofRegex target.keyword (Regex.containing (Glob.normalize pattern)) := by
  have hplain : Glob.hasWildcard (Glob.normalize pattern) = false := by
    rw [Glob.hasWildcard_normalize, hglob]
  obtain ⟨f, hf⟩ := hkeyword
  unfold ofPattern
  simp only [List.isEmpty_eq_false_iff.2 hne, hf, hplain, htarget, hfield, analyze_normalize, hterms, bind,
    Except.bind, Bool.false_eq_true, if_false]
  cases ofRegex target.keyword (Regex.containing (Glob.normalize pattern)) <;> rfl

/-- The query of the terms of a pattern selects what has the grams of its words, all moved alike. -/
theorem selects_ofTerms_iff (hterms : terms pattern ≠ []) :
    (ofTerms field (terms pattern)).selects schema d = true ↔
      ∃ p, ∀ x ∈ spelled (Glob.words pattern), (p + x.1, x.2) ∈ textTokens schema d field := by
  have hfirst : ∀ r ∈ (terms pattern).head?, r.1 = 0 := by
    intro r hr
    rw [terms, List.head?_map, Option.mem_map] at hr
    obtain ⟨x, hx, rfl⟩ := hr
    exact Analysis.Grams.position_of_mem_head? x hx
  rw [selects_ofTerms field hterms, Document.hasPhrase_iff hterms hfirst]
  refine exists_congr fun p => ?_
  rw [terms, List.forall_mem_map]
  simp only [String.toList_ofList]

end Query

/-! ### The texts of events -/

/-- A text of events that filters match patterns against. -/
inductive SearchedText where
  | element
  | subElement
  | summary
deriving DecidableEq, Repr

namespace SearchedText

/-- The text of an event. -/
def text : SearchedText → Event → String
  | element, e => e.element
  | subElement, e => e.subElement
  | summary, e => e.summary

/-- The fields that hold the text. -/
def target : SearchedText → PatternTarget
  | element => .element
  | subElement => .subElement
  | summary => .summary

/-- The field in which the text is analyzed. -/
def field : SearchedText → String
  | element => Field.element
  | subElement => Field.subElement
  | summary => Field.summary

/-- The filter that asks for a pattern in the text, and for nothing else. -/
def filter : SearchedText → String → Filter
  | element, pattern => { element := some pattern }
  | subElement, pattern => { subElement := some pattern }
  | summary, pattern => { summary := some pattern }

/-- An event with a given text. -/
def event : SearchedText → String → Event
  | element, s => .raise (.ofNat 1) .epoch s "/Status" "down" .warning
  | subElement, s => { Event.raise (.ofNat 1) .epoch "host" "/Status" "down" .warning with subElement := s }
  | summary, s => .raise (.ofNat 1) .epoch "host" "/Status" s .warning

@[simp] theorem text_event (t : SearchedText) (s : String) : t.text (t.event s) = s := by
  cases t <;> rfl

/-- The text in lower case is short enough to be indexed as a whole. -/
def IsIndexedWhole (t : SearchedText) (e : Event) : Prop :=
  Analysis.byteLength (Text.lower (t.text e)).toList ≤ maxTokenBytes

instance (t : SearchedText) (e : Event) : Decidable (t.IsIndexedWhole e) :=
  inferInstanceAs (Decidable (_ ≤ _))

variable {t : SearchedText} {pattern : String} {p : List Char}

theorem exists_keyword (t : SearchedText) : ∃ f, Query.fieldNamed .events t.target.keyword = .ok f := by
  cases t <;> exact ⟨_, rfl⟩

theorem analyzed_target (t : SearchedText) : t.target.analyzed = some t.field := by
  cases t <;> rfl

/-- Identifiers are analyzed into grams. -/
theorem fieldNamed_field (ht : t ≠ summary) :
    Query.fieldNamed .events t.field = .ok (.analyzed t.field .grams) := by
  cases t with
  | element => rfl
  | subElement => rfl
  | summary => exact absurd rfl ht

/-- The query of the filter is that of its pattern. -/
theorem ofFilter_filter (t : SearchedText) (pattern : String) :
    Query.ofFilter .events (some (t.filter pattern)) =
      Query.ofClauses .events [.pattern t.target pattern] := by
  cases t <;> simp [Query.ofFilter, filter, target, Filter.clauses, Filter.anyOf]

theorem ofFilter_of_ok {q : Query} (h : Query.ofPattern .events t.target pattern = .ok (some q)) :
    Query.ofFilter .events (some (t.filter pattern)) = .ok q := by
  rw [ofFilter_filter]
  exact Query.ofClauses_singleton h

theorem ofFilter_of_error {err : CatalogError} (h : Query.ofPattern .events t.target pattern = .error err) :
    Query.ofFilter .events (some (t.filter pattern)) = .error err := by
  have hclause : Query.ofClause .events (.pattern t.target pattern) = .error err := h
  rw [ofFilter_filter, Query.ofClauses, List.mapM_cons, hclause]
  rfl

/-! ### Found by grams -/

/-- What is indexed of an identifier are the grams of its words. -/
theorem textTokens_field (ht : t ≠ summary) (e : Event) :
    Query.textTokens .events (.ofEvent e) t.field = spelled (words (t.text e).toList) := by
  cases t with
  | summary => exact absurd rfl ht
  | element =>
    -- the identifier of an element is stored even if it is empty
    have htexts : (Document.ofEvent e).texts Field.element = [e.element] := by
      rw [Document.texts, Document.get_ofEvent e rfl rfl rfl rfl]
      split <;> rfl
    change Document.tokens (.ofEvent e) .grams Field.element = _
    rw [Document.tokens, htexts, Document.tokensFrom_grams]
    rfl
  | subElement =>
    change Document.tokens (.ofEvent e) .grams Field.subElement = _
    rw [Document.tokens, Document.texts, Document.get_ofEvent e rfl rfl rfl rfl]
    split
    -- an empty identifier is left out, and has no grams
    · next hempty =>
      rw [text, String.isEmpty_iff.1 hempty]
      rfl
    · exact Document.tokensFrom_grams e.subElement

/-- **A pattern with a word that is long enough** for a gram finds the identifiers that have the grams of its
words, all moved alike. -/
theorem selects_hasPhrase (ht : t ≠ summary) (hglob : Glob.hasWildcard pattern.toList = false)
    (hlong : ∃ w ∈ Glob.words pattern, gramSize ≤ w.length) :
    (t.filter pattern).Selects fun e =>
      HasPhrase (words (t.text e).toList) (Glob.words pattern) := by
  -- the long word has a gram
  have hterms : Query.terms pattern ≠ [] := by
    rw [Query.terms, ne_eq, List.map_eq_nil_iff, Analysis.Grams.spelled_eq_nil_iff]
    intro hshort
    obtain ⟨w, hw, hlong⟩ := hlong
    exact Nat.not_lt.2 hlong (hshort w hw)
  refine ⟨_, ofFilter_of_ok (Query.ofPattern_of_terms t.exists_keyword t.analyzed_target
    (fieldNamed_field ht) hglob hterms), fun e => ?_⟩
  rw [Query.selects_ofTerms_iff hterms, textTokens_field ht]
  rfl

/-! ### Found in the text as a whole -/

/-- What is indexed of a text as a whole is the text in lower case; an empty identifier of a part is left out. -/
theorem texts_keyword (t : SearchedText) (e : Event) :
    (Document.ofEvent e).texts t.target.keyword =
      if t = subElement ∧ e.subElement.isEmpty then [] else [Text.lower (t.text e)] := by
  cases t with
  | element | summary =>
    rw [if_neg (by simp), Document.texts, Document.get_ofEvent e rfl rfl rfl rfl]
    split <;> rfl
  | subElement =>
    simp only [true_and]
    rw [Document.texts, Document.get_ofEvent e rfl rfl rfl rfl]
    split <;> rfl

/-- **What contains a pattern** has it with no line feed before or behind it, and is short enough to be indexed as
a whole. -/
theorem selects_regex_containing (t : SearchedText) (hp : p ≠ []) (e : Event) :
    (Query.regex t.target.keyword (Regex.containing p)).selects .events (.ofEvent e) = true ↔
      t.IsIndexedWhole e ∧ Glob.StandsIn p (Text.lower (t.text e)).toList := by
  -- as a whole, each text is the one token of its field
  have htokens : Query.textTokens .events (.ofEvent e) t.target.keyword =
      Document.tokens (.ofEvent e) .keyword t.target.keyword := by
    cases t <;> rfl
  rw [Query.selects, htokens, Document.tokens, texts_keyword]
  split
  · next hempty =>
    obtain ⟨rfl, hempty⟩ := hempty
    -- an empty identifier has no token, and contains no pattern
    refine iff_of_false (by simp [Document.tokensFrom]) ?_
    rintro ⟨-, before, after, heq, -⟩
    rw [text, String.isEmpty_iff.1 hempty] at heq
    simp [Text.lower, Text.lowerAfter, hp] at heq
  · simp only [Document.tokensFrom, Analyzer.tokens, List.filter_cons, List.filter_nil, List.append_nil]
    split
    · next hshort =>
      simp only [List.map_cons, List.map_nil, List.any_cons, List.any_nil, Bool.or_false,
        Regex.test_eq_accepts, Regex.accepts_containing]
      exact (and_iff_right (of_decide_eq_true hshort)).symm
    · next hlong =>
      -- a text that is too long has no token either
      refine iff_of_false (by simp) fun h => hlong (decide_eq_true h.1)

variable (hquery : Query.ofPattern .events t.target pattern =
  some <$> Query.ofRegex t.target.keyword (Regex.containing p))

include hquery

/-- **A pattern to be contained** finds the texts that have it with no line feed before or behind it. -/
theorem selects_containing (hp : p ≠ []) (hsmall : (Regex.containing p).isTooLarge = false) :
    (t.filter pattern).Selects fun e =>
      t.IsIndexedWhole e ∧ Glob.StandsIn p (Text.lower (t.text e)).toList := by
  rw [Query.ofRegex, hsmall] at hquery
  exact ⟨_, ofFilter_of_ok hquery, t.selects_regex_containing hp⟩

/-- It is refused if its automaton is too large. -/
theorem refuses_containing (hlarge : (Regex.containing p).isTooLarge = true) :
    Query.ofFilter .events (some (t.filter pattern)) =
      .error ⟨.queryBuilding, .badPattern (Regex.containing p).render⟩ := by
  rw [Query.ofRegex, hlarge] at hquery
  exact ofFilter_of_error hquery

end SearchedText

end EventCatalog
