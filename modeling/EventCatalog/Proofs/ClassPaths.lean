import EventCatalog.Proofs.EventFields
import EventCatalog.Proofs.Exploration
import EventCatalog.Proofs.TextPatterns

/-!
# Filters for the class of an event

Classes are paths. The class of an event is indexed in lower case and with a slash at its end (`Event.path`). A
pattern is put in lower case too; it then gets a slash at its end, or a star if it has the slash already
(`Glob.completePath`). So a pattern without wildcards finds the class with that path, or, if it ends in a slash,
what begins with the path (`Query.ofPath_of_plain`, `Query.ofPath_of_star`).

Since the paths of classes end in slashes, one begins with another only at the end of a segment. That is why
`/a/b` and `/a/b/` tell the class `/a/b` and its subtree from a sibling `/a/bc` (`Event.path_eq_iff`,
`Event.prefix_path_iff`). What lists show of all that is put together in `Catalog.list_class`.
-/

namespace EventCatalog

open Text (isBlank lowerAfter)

/-! ### Classes as paths -/

namespace Event

/-- The class of an event as it is indexed. -/
def path (e : Event) : List Char := (normalizeClass e.eventClass).toList

/-- The class of an event in lower case. -/
def lowerClass (e : Event) : List Char := (Text.lower e.eventClass).toList

variable {e : Event} {base : List Char}

theorem path_eq_self (h : e.lowerClass.getLast? = some '/') : e.path = e.lowerClass := by
  rw [path, normalizeClass]
  exact congrArg String.toList (if_pos h)

theorem path_eq_append (h : e.lowerClass.getLast? ≠ some '/') : e.path = e.lowerClass ++ ['/'] := by
  rw [path, normalizeClass]
  exact (congrArg String.toList (if_neg h)).trans String.toList_append

/-- **One class has a path** that is completed by a slash, written with or without it. -/
theorem path_eq_iff (hbase : base.getLast? ≠ some '/') :
    e.path = base ++ ['/'] ↔ e.lowerClass = base ∨ e.lowerClass = base ++ ['/'] := by
  -- one of the two spellings has the slash, so each case rules the other one out
  by_cases h : e.lowerClass.getLast? = some '/'
  · rw [path_eq_self h, or_iff_right]
    rintro rfl
    exact hbase h
  · rw [path_eq_append h, List.append_left_inj, or_iff_left]
    intro heq
    rw [heq, List.getLast?_concat] at h
    exact h rfl

/-- **The classes of a subtree** are the one at its root, and those below it. -/
theorem prefix_path_iff (hbase : base.getLast? ≠ some '/') :
    base ++ ['/'] <+: e.path ↔ e.lowerClass = base ∨ base ++ ['/'] <+: e.lowerClass := by
  by_cases h : e.lowerClass.getLast? = some '/'
  · rw [path_eq_self h, or_iff_right]
    rintro rfl
    exact hbase h
  · rw [path_eq_append h]
    constructor
    -- the slash of the pattern is the last one of the path, or comes before it
    · intro hprefix
      rcases List.prefix_concat_iff.1 hprefix with heq | hprefix
      · exact .inl (List.append_left_injective _ heq).symm
      · exact .inr hprefix
    · rintro (rfl | hprefix)
      · exact List.prefix_rfl
      · exact hprefix.trans (List.prefix_append _ _)

/-- **A sibling is no part of the subtree**, though it begins with the path without a slash. -/
theorem not_prefix_path {c : Char} {rest : List Char} (hc : c ≠ '/') (h : e.lowerClass = base ++ c :: rest) :
    ¬ base ++ ['/'] <+: e.path := by
  -- behind the path, the sibling goes on with another character than the slash
  have hnot : ∀ s, ¬ base ++ ['/'] <+: base ++ c :: s := by
    intro s hprefix
    rw [List.prefix_append_right_inj, List.cons_prefix_cons] at hprefix
    exact hc hprefix.1.symm
  by_cases hlast : e.lowerClass.getLast? = some '/'
  · rw [path_eq_self hlast, h]
    exact hnot rest
  · rw [path_eq_append hlast, h, List.append_assoc]
    exact hnot (rest ++ ['/'])

/-- A class of one line has a path of one line. -/
theorem newline_notMem_path (h : '\n' ∉ e.eventClass.toList) : '\n' ∉ e.path := by
  have hlower : '\n' ∉ e.lowerClass := by
    rwa [lowerClass, Text.lower, String.toList_ofList, (Text.isCaseless_of_lt (by decide)).mem_lowerAfter]
  by_cases hlast : e.lowerClass.getLast? = some '/'
  · rwa [path_eq_self hlast]
  · rw [path_eq_append hlast, List.mem_append, List.mem_singleton]
    exact not_or.2 ⟨hlower, by decide⟩

end Event

/-! ### Patterns of paths -/

namespace Glob

variable {p : List Char}

/-- A path without a final slash gets one. -/
theorem completePath_of_plain (h : hasWildcard p = false) (hlast : p.getLast? ≠ some '/') :
    completePath p = p ++ ['/'] := by
  unfold completePath
  -- by the last character: a star would be a wildcard, and a slash is ruled out
  split
  · next hstar =>
    have hmem := List.any_eq_false.1 h '*' (List.mem_of_getLast? hstar)
    exact absurd rfl hmem
  · next hslash => exact absurd hslash hlast
  · rfl

/-- A path with a final slash gets a star. -/
theorem completePath_of_slash (hlast : p.getLast? = some '/') : completePath p = p ++ ['*'] := by
  unfold completePath
  split
  · next hstar => exact absurd (Option.some.inj (hlast.symm.trans hstar)) (by decide)
  · rfl
  · next hslash => exact absurd hlast hslash

/-- A path with a final star is left as it is. -/
theorem completePath_star (p : List Char) : completePath (p ++ ['*']) = p ++ ['*'] := by
  have hlast : (p ++ ['*']).getLast? = some '*' := List.getLast?_concat
  unfold completePath
  split
  · rfl
  · next hslash => exact absurd (Option.some.inj (hlast.symm.trans hslash)) (by decide)
  · next hstar _ => exact absurd hlast hstar

/-- What a pattern begins with if more follows: only the blanks in front are left out. -/
def opening (pattern : String) : List Char :=
  (Text.lower (String.ofList (Text.trimStart pattern.toList))).toList

theorem hasWildcard_opening (pattern : String) :
    hasWildcard (opening pattern) = hasWildcard pattern.toList := by
  refine hasWildcard_congr fun c hc hblank => ?_
  rw [opening, Text.lower, String.toList_ofList, String.toList_ofList, hc.mem_lowerAfter,
    Text.mem_trimStart hblank]

/-- A star has no case, and is not passed over where a letter is looked for. -/
theorem isBreak_star : Text.IsBreak '*' where
  -- the tables are gone through as lists, which is faster to evaluate
  notIgnorable := by
    rw [Text.isCaseIgnorable, Text.inRanges, ← Array.any_toList]
    decide +kernel
  notCased := by
    rw [Text.isCased, Text.inRanges, ← Array.any_toList]
    decide +kernel

/-- **A star at the end of a pattern** keeps the blanks in front of it, and the text in front of it is put in lower
case as if it ended there. -/
theorem normalize_star (pattern : String) : normalize (pattern ++ "*") = opening pattern ++ ['*'] := by
  have hstar : isBlank '*' = false := Text.isBlank_of_visible (by decide) (by decide)
  have hfront : Text.trimStart (pattern.toList ++ ['*']) = Text.trimStart pattern.toList ++ ['*'] := by
    unfold Text.trimStart
    rw [List.dropWhile_append]
    split
    · next hempty =>
      rw [List.isEmpty_iff.1 hempty, List.dropWhile_cons_of_neg (by rw [hstar]; decide)]
      rfl
    · rfl
  have htrim : Text.trim (pattern.toList ++ ['*']) = Text.trimStart pattern.toList ++ ['*'] := by
    rw [Text.trim, hfront, List.reverse_append, List.reverse_singleton, List.singleton_append, Text.trimStart,
      List.dropWhile_cons_of_neg (by rw [hstar]; decide), List.reverse_cons, List.reverse_reverse]
  -- the star is a break, so a final sigma in front of it is written as at the end of a word
  have hbreak : ∀ c ∈ ['*'].head?, Text.IsBreak c := fun c hc => by
    obtain rfl := Option.some.inj hc
    exact isBreak_star
  have hself : ∀ before, lowerAfter before ['*'] = ['*'] := fun before =>
    Text.lowerAfter_eq_self fun c hc => by
      rw [List.mem_singleton.1 hc]
      exact Text.lowerChar_ascii (by decide)
  have htext : (pattern ++ "*").toList = pattern.toList ++ ['*'] := String.toList_append
  rw [normalize, opening, Text.lower, Text.lower, String.toList_ofList, String.toList_ofList,
    String.toList_ofList, String.toList_ofList, htext, htrim, Text.lowerAfter_append [] _ hbreak, hself]

end Glob

/-! ### What a pattern finds -/

namespace Query

variable {pattern : String} {p : List Char}

/-- **A path that is completed by a slash** is looked up as a whole. -/
theorem ofPath_of_plain (hplain : Glob.hasWildcard pattern.toList = false)
    (hne : Glob.normalize pattern ≠ []) (hlast : (Glob.normalize pattern).getLast? ≠ some '/') :
    ofPath .events Field.eventClass pattern =
      .ok (some (.term Field.eventClass (.text (String.ofList (Glob.normalize pattern ++ ['/']))))) := by
  have hnormal : Glob.hasWildcard (Glob.normalize pattern) = false := by
    rw [Glob.hasWildcard_normalize, hplain]
  have hslash : Glob.hasWildcard (Glob.normalize pattern ++ ['/']) = false := by
    rw [Glob.hasWildcard, List.any_append, ← Glob.hasWildcard, hnormal]
    rfl
  have hfield : fieldNamed .events Field.eventClass = .ok (.keyword Field.eventClass true false) := rfl
  unfold ofPath
  simp only [List.isEmpty_eq_false_iff.2 hne, Glob.completePath_of_plain hnormal hlast, hslash, hfield, bind,
    Except.bind, Bool.false_eq_true, if_false]
  rfl

/-- **A path that is completed by a star** is an expression for what begins with it. -/
theorem ofPath_of_star (hplain : Glob.hasWildcard p = false) (hne : Glob.normalize pattern ≠ [])
    (hcomplete : Glob.completePath (Glob.normalize pattern) = p ++ ['*']) :
    ofPath .events Field.eventClass pattern =
      some <$> ofRegex Field.eventClass (Regex.startingWith p) := by
  have hstar : Glob.hasWildcard (p ++ ['*']) = true := by
    rw [Glob.hasWildcard, List.any_append]
    exact Bool.or_true _
  have hfield : fieldNamed .events Field.eventClass = .ok (.keyword Field.eventClass true false) := rfl
  unfold ofPath
  simp only [List.isEmpty_eq_false_iff.2 hne, hcomplete, Glob.toRegex_append_star hplain, hstar, hfield, bind,
    Except.bind, Bool.false_eq_true, if_false, if_true]
  cases ofRegex Field.eventClass (Regex.startingWith p) <;> rfl

end Query

namespace Event

/-- The path of the class is short enough to be indexed. -/
def HasShortPath (e : Event) : Prop := Analysis.byteLength e.path ≤ maxTokenBytes

instance (e : Event) : Decidable e.HasShortPath := inferInstanceAs (Decidable (_ ≤ _))

/-- **What is indexed of the class** of an event is its path, if that is short enough. -/
theorem textTokens_eventClass (e : Event) :
    Query.textTokens .events (.ofEvent e) Field.eventClass =
      if e.HasShortPath then [(0, e.path)] else [] := by
  have htokens : Query.textTokens .events (.ofEvent e) Field.eventClass =
      Document.tokens (.ofEvent e) .keyword Field.eventClass := rfl
  have htexts : (Document.ofEvent e).texts Field.eventClass = [normalizeClass e.eventClass] := by
    rw [Document.texts, Document.get_ofEvent e rfl rfl rfl rfl]
    split <;> rfl
  rw [htokens, Document.tokens, htexts]
  -- there is one text, and it is one token
  simp only [Document.tokensFrom, Analyzer.tokens, List.filter_cons, List.filter_nil, List.append_nil]
  by_cases hshort : e.HasShortPath
  · have h : Analysis.byteLength (normalizeClass e.eventClass).toList ≤ maxTokenBytes := hshort
    simp only [HasShortPath, path, h, decide_true, if_true, List.map_cons, List.map_nil, Nat.zero_add]
  · have h : ¬ Analysis.byteLength (normalizeClass e.eventClass).toList ≤ maxTokenBytes := hshort
    simp only [HasShortPath, path, h, decide_false, if_false, Bool.false_eq_true, List.map_nil]

end Event

namespace Filter

variable {pattern : String} {p : List Char}

/-- The filter that asks for a class, and for nothing else. -/
def ofClass (pattern : String) : Filter := { eventClass := some pattern }

/-- The query of the filter is that of its pattern. -/
theorem ofFilter_ofClass (pattern : String) :
    Query.ofFilter .events (some (ofClass pattern)) = Query.ofClauses .events [.path Field.eventClass pattern] := by
  simp [Query.ofFilter, ofClass, Filter.clauses, Filter.anyOf]

theorem ofFilter_ofClass_of_ok {q : Query} (h : Query.ofPath .events Field.eventClass pattern = .ok (some q)) :
    Query.ofFilter .events (some (ofClass pattern)) = .ok q := by
  rw [ofFilter_ofClass]
  exact Query.ofClauses_singleton h

/-- **A pattern without a final slash** selects the class with its path. -/
theorem selects_of_plain (hplain : Glob.hasWildcard pattern.toList = false)
    (hne : Glob.normalize pattern ≠ []) (hlast : (Glob.normalize pattern).getLast? ≠ some '/') :
    (ofClass pattern).Selects fun e => e.HasShortPath ∧ e.path = Glob.normalize pattern ++ ['/'] := by
  refine ⟨_, ofFilter_ofClass_of_ok (Query.ofPath_of_plain hplain hne hlast), fun e => ?_⟩
  rw [Query.selects, e.textTokens_eventClass]
  split
  · next hshort =>
    simp only [List.any_cons, List.any_nil, Bool.or_false, beq_iff_eq, String.toList_ofList]
    exact (and_iff_right hshort).symm
  · next hlong => exact iff_of_false (by simp) fun h => hlong h.1

/-- **A path that is completed by a star** selects the classes of one line that begin with it. -/
theorem selects_of_star (hquery : Query.ofPath .events Field.eventClass pattern =
      some <$> Query.ofRegex Field.eventClass (Regex.startingWith p))
    (hsmall : (Regex.startingWith p).isTooLarge = false) :
    (ofClass pattern).Selects fun e => e.HasShortPath ∧ ∃ after, e.path = p ++ after ∧ '\n' ∉ after := by
  rw [Query.ofRegex, hsmall] at hquery
  refine ⟨_, ofFilter_ofClass_of_ok hquery, fun e => ?_⟩
  rw [Query.selects, e.textTokens_eventClass]
  split
  · next hshort =>
    simp only [List.any_cons, List.any_nil, Bool.or_false, Regex.test_eq_accepts, Regex.accepts_startingWith]
    exact (and_iff_right hshort).symm
  · next hlong => exact iff_of_false (by simp) fun h => hlong h.1

/-- It is refused if its automaton is too large. -/
theorem refuses_of_star (hquery : Query.ofPath .events Field.eventClass pattern =
      some <$> Query.ofRegex Field.eventClass (Regex.startingWith p))
    (hlarge : (Regex.startingWith p).isTooLarge = true) :
    Query.ofFilter .events (some (ofClass pattern)) =
      .error ⟨.queryBuilding, .badPattern (Regex.startingWith p).render⟩ := by
  rw [Query.ofRegex, hlarge] at hquery
  have hclause : Query.ofClause .events (.path Field.eventClass pattern) =
      .error ⟨.queryBuilding, .badPattern (Regex.startingWith p).render⟩ := hquery
  rw [ofFilter_ofClass, Query.ofClauses, List.mapM_cons, hclause]
  rfl

end Filter

/-! ### What lists show -/

namespace Catalog

variable {c : Catalog} {e : Event} {q : String} {p : List Char}

/-- Whatever the sort and the page, an event is among those that the lists of a filter show under a condition. -/
def ListsIff (c : Catalog) (f : Filter) (e : Event) (P : Prop) : Prop :=
  ∀ sort, ∃ found : List Event, (e ∈ found ↔ P) ∧ ∀ limit offset,
    c.list ⟨some f, sort, limit, offset⟩ =
      .ok (Request.pageOf ⟨some f, sort, limit, offset⟩ c.config.maxResults found)

/-- The lists of a filter are refused because the automaton for what begins with a text is too large, or it is not,
and they show what begins with the text. -/
def ListsPrefixed (c : Catalog) (f : Filter) (e : Event) (p : List Char) : Prop :=
  ((Regex.startingWith p).isTooLarge = true ∧ ∀ sort limit offset,
    c.list ⟨some f, sort, limit, offset⟩ = .error ⟨.queryBuilding, .badPattern (Regex.startingWith p).render⟩) ∨
  ((Regex.startingWith p).isTooLarge = false ∧ c.ListsIff f e (p <+: e.path))

/-- A path that is completed by a star shows what begins with it. -/
theorem listsPrefixed_of_star (hc : c.HoldsEvents) (he : e ∈ c.visible) (hline : '\n' ∉ e.eventClass.toList)
    (hshort : e.HasShortPath) (hquery : Query.ofPath .events Field.eventClass q =
      some <$> Query.ofRegex Field.eventClass (Regex.startingWith p)) :
    c.ListsPrefixed (.ofClass q) e p := by
  cases hsize : (Regex.startingWith p).isTooLarge with
  | true => exact .inl ⟨hsize, fun sort limit offset => list_error hc (Filter.refuses_of_star hquery hsize)⟩
  | false =>
    refine .inr ⟨hsize, fun sort => ?_⟩
    obtain ⟨found, hfound, hlist⟩ := (Filter.selects_of_star hquery hsize).mem_list hc he sort
    refine ⟨found, ?_, hlist⟩
    rw [hfound, and_iff_right hshort]
    constructor
    · rintro ⟨after, heq, -⟩
      exact ⟨after, heq.symm⟩
    -- in a class of one line, nothing behind the path is a line feed
    · rintro ⟨after, heq⟩
      refine ⟨after, heq.symm, fun hmem => Event.newline_notMem_path hline ?_⟩
      rw [← heq]
      exact List.mem_append_right p hmem

/-- **Filters for a class follow the rules of paths.** Among the visible events with a class of one line that is short
enough to be indexed, a pattern without wildcards that does not end in a slash shows the class with its path,
completed by a slash; one that ends in a slash shows the classes that begin with it, and so does a pattern with a
star behind it. So a path without the slash stands for one class, with the slash for the subtree of the class,
and neither for its siblings. -/
theorem list_class (hc : c.HoldsEvents) (he : e ∈ c.visible) (hline : '\n' ∉ e.eventClass.toList)
    (hshort : e.HasShortPath) (hplain : Glob.hasWildcard q.toList = false) :
    (Glob.normalize q ≠ [] → (Glob.normalize q).getLast? ≠ some '/' →
      c.ListsIff (.ofClass q) e (e.path = Glob.normalize q ++ ['/'])) ∧
    ((Glob.normalize q).getLast? = some '/' → c.ListsPrefixed (.ofClass q) e (Glob.normalize q)) ∧
    c.ListsPrefixed (.ofClass (q ++ "*")) e (Glob.opening q) ∧
    ∀ base : List Char, base.getLast? ≠ some '/' →
      (e.path = base ++ ['/'] ↔ e.lowerClass = base ∨ e.lowerClass = base ++ ['/']) ∧
      (base ++ ['/'] <+: e.path ↔ e.lowerClass = base ∨ base ++ ['/'] <+: e.lowerClass) ∧
      ∀ x rest, x ≠ '/' → e.lowerClass = base ++ x :: rest →
        e.path ≠ base ++ ['/'] ∧ ¬ base ++ ['/'] <+: e.path := by
  have hnormal : Glob.hasWildcard (Glob.normalize q) = false := by
    rw [Glob.hasWildcard_normalize, hplain]
  refine ⟨fun hne hlast sort => ?_, fun hlast => ?_, ?_, fun base hbase => ?_⟩
  · obtain ⟨found, hfound, hlist⟩ := (Filter.selects_of_plain hplain hne hlast).mem_list hc he sort
    exact ⟨found, hfound.trans (and_iff_right hshort), hlist⟩
  -- the pattern gets a star behind its slash
  · have hne : Glob.normalize q ≠ [] := List.ne_nil_of_mem (List.mem_of_getLast? hlast)
    exact listsPrefixed_of_star hc he hline hshort
      (Query.ofPath_of_star hnormal hne (Glob.completePath_of_slash hlast))
  -- the pattern has a star of its own, which keeps the blanks in front of it
  · have hopening : Glob.hasWildcard (Glob.opening q) = false := by
      rw [Glob.hasWildcard_opening, hplain]
    have hne : Glob.normalize (q ++ "*") ≠ [] := by
      rw [Glob.normalize_star]
      exact List.concat_ne_nil '*' _
    have hcomplete : Glob.completePath (Glob.normalize (q ++ "*")) = Glob.opening q ++ ['*'] := by
      rw [Glob.normalize_star, Glob.completePath_star]
    exact listsPrefixed_of_star hc he hline hshort (Query.ofPath_of_star hopening hne hcomplete)
  · refine ⟨Event.path_eq_iff hbase, Event.prefix_path_iff hbase, fun x rest hx heq => ?_⟩
    have hnot := Event.not_prefix_path hx heq
    refine ⟨fun hpath => hnot ?_, hnot⟩
    rw [hpath]

/-- An event of a class. -/
def slowDisk : Event := .raise (.ofNat 1) .epoch "host" "/Perf/Disk" "slow" .warning

/-- Its class, two patterns as they are matched, and an automaton that is small enough. -/
theorem path_slowDisk :
    slowDisk.path = "/perf/disk/".toList ∧ Glob.normalize " /PERF/ " = "/perf/".toList ∧
      Glob.normalize "/perf/dis" = "/perf/dis".toList ∧
      (Regex.startingWith "/perf/".toList).isTooLarge = false := by
  rw [Regex.isTooLarge_eq]
  decide +kernel

/-- The event is in the subtree of its class, and not in a class with a shorter name. -/
theorem list_class_slowDisk :
    ∃ c, openDirectory "events" .default (.index (indexOf [slowDisk])) false = .ok c ∧
      slowDisk ∈ c.visible ∧ c.ListsIff (.ofClass " /PERF/ ") slowDisk True ∧
      c.ListsIff (.ofClass "/perf/dis") slowDisk False := by
  obtain ⟨c, hopen, hc, hvisible, -⟩ := exists_visible [slowDisk]
  obtain ⟨hpath, hsubtree, hshorter, hsmall⟩ := path_slowDisk
  have he : slowDisk ∈ c.visible := by
    rw [hvisible]
    exact List.mem_singleton_self _
  have hshort : slowDisk.HasShortPath := by
    rw [Event.HasShortPath, hpath]
    decide
  refine ⟨c, hopen, he, ?_, ?_⟩
  · obtain ⟨-, hlist, -⟩ := list_class (q := " /PERF/ ") hc he (by decide) hshort (by decide)
    rw [hsubtree] at hlist
    rcases hlist (by decide) with ⟨hlarge, -⟩ | ⟨-, hfound⟩
    · exact nomatch hsmall.symm.trans hlarge
    · have hprefix : "/perf/".toList <+: "/perf/disk/".toList := by decide
      rwa [hpath, eq_true hprefix] at hfound
  · obtain ⟨hlist, -⟩ := list_class (q := "/perf/dis") hc he (by decide) hshort (by decide)
    rw [hshorter, hpath] at hlist
    have hne : "/perf/disk/".toList ≠ "/perf/dis".toList ++ ['/'] := by decide
    have hfound := hlist (by decide) (by decide)
    rwa [eq_false hne] at hfound

end Catalog

end EventCatalog
