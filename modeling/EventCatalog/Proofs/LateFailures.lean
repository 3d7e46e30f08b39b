import EventCatalog.Proofs.ClauseLists

/-!
# Clauses that fail late

A query should be refused when it is built, not when it is run. Literals keep to that: the field is looked
at before a term of it is looked up. The other kinds of clauses only ask whether the field is known, so a
query may be built that no index can run (`Query.run_codes_of_json`). Which lists of clauses have such a
query is said by `Clause.FailsLate` (`Query.refused_or_runs`).

If the fields that a clause names are of the kind that it looks for, as far as they are known
(`Clause.Typed`), all is as it should be. What a field cannot serve (`Clause.Served`) is then refused as an
invalid argument, and what is built can be run.
-/

namespace EventCatalog

/-- The field is a text that is looked up by tokens. -/
def Field.HasTokens (f : Field) : Prop := f.type = .text ∧ ∃ a, f.indexing = .analyzed a

/-- The field is a number that can be looked up. -/
def Field.HasNumbers (f : Field) : Prop := f.type = .integer ∧ f.isIndexed = true

theorem Field.HasTokens.isSearchable {schema : Schema} {name : String} {f : Field} (h : f.HasTokens)
    (hf : schema.field? name = some f) : Query.isSearchable schema name = true := by
  obtain ⟨-, a, ha⟩ := h
  simp [Query.isSearchable, hf, Field.isIndexed, ha]

theorem Field.HasNumbers.isSearchable {schema : Schema} {name : String} {f : Field} (h : f.HasNumbers)
    (hf : schema.field? name = some f) : Query.isSearchable schema name = true := by
  rw [Query.isSearchable, hf]
  exact h.2

namespace Clause

variable {schema : Schema} {c : Clause}

/-- The fields that the clause names are of the kind that it looks for, as far as they are known. Literals
look for texts and numbers alike. -/
def Typed (schema : Schema) : Clause → Prop
  | .exact _ _ | .exactSet _ _ _ => True
  | .pattern target _ => ∀ name ∈ target.keyword :: target.analyzed.toList,
      ∀ f, schema.field? name = some f → f.HasTokens
  | .path field _ => ∀ f, schema.field? field = some f → f.HasTokens
  | .range field _ _ | .codes field _ => ∀ f, schema.field? field = some f → f.HasNumbers

/-- The field has the literal among the values that can be looked up in it. -/
def Takes (f : Field) (value : String) : Prop :=
  f.isIndexed = true ∧ (f.type = .text ∨ f.type = .integer ∧ (Text.int64Of? value).isSome = true)

/-- The fields can serve the clause: they are known, and can be looked up for what it asks for. A pattern
that is blank asks for nothing, and the analyzed field is only asked for a plain pattern. -/
def Served (schema : Schema) : Clause → Prop
  | .exact field value => ∃ f, schema.field? field = some f ∧ Takes f value
  | .exactSet field values _ => ∀ value ∈ values, ∃ f, schema.field? field = some f ∧ Takes f value
  | .pattern target text => Glob.normalize text = [] ∨
      (∃ f, schema.field? target.keyword = some f ∧ f.HasTokens) ∧
      (Glob.hasWildcard (Glob.normalize text) = true ∨
        ∀ name ∈ target.analyzed, ∃ f, schema.field? name = some f ∧ f.HasTokens)
  | .path field text => Glob.normalize text = [] ∨ ∃ f, schema.field? field = some f ∧ f.HasTokens
  | .range field _ _ | .codes field _ => ∃ f, schema.field? field = some f ∧ f.HasNumbers

/-- What the fields can serve does not fail late. -/
theorem Served.not_failsLate (h : c.Served schema) : ¬ c.FailsLate schema := by
  intro hlate
  cases c with
  | exact field value => exact hlate
  | exactSet field values op => exact hlate
  | pattern target text =>
    obtain ⟨-, hnonempty, -, hmissing⟩ := hlate
    obtain ⟨f, hf, hfield⟩ := (h.resolve_left hnonempty).1
    exact Bool.false_ne_true (hmissing.symm.trans (hfield.isSearchable hf))
  | path field text =>
    obtain ⟨hnonempty, -, hmissing⟩ := hlate
    obtain ⟨f, hf, hfield⟩ := h.resolve_left hnonempty
    exact Bool.false_ne_true (hmissing.symm.trans (hfield.isSearchable hf))
  | range field least greatest =>
    obtain ⟨f, hf, hfield⟩ := h
    exact hlate.2 ⟨f, hf, hfield.1⟩
  | codes field ns =>
    obtain ⟨f, hf, hfield⟩ := h
    exact Bool.false_ne_true (hlate.2.symm.trans (hfield.isSearchable hf))

end Clause

/-! ### What is built, and what is refused -/

namespace Query

variable {schema : Schema}

theorem fieldNamed_eq_ok {name : String} {f : Field} :
    fieldNamed schema name = .ok f ↔ schema.field? name = some f := by
  refine ⟨field?_of_fieldNamed, fun h => ?_⟩
  rw [fieldNamed, h]

theorem takes_of_exactTerm {name value : String} {q : Query} (h : exactTerm schema name value = .ok q) :
    ∃ f, schema.field? name = some f ∧ Clause.Takes f value := by
  obtain ⟨f, hf, h⟩ := Except.bind_eq_ok.1 h
  refine ⟨f, fieldNamed_eq_ok.1 hf, ?_⟩
  by_cases hindexed : f.isIndexed = true
  · simp only [hindexed, Bool.not_true, Bool.false_eq_true, if_false] at h
    refine ⟨hindexed, ?_⟩
    -- a number is read as such, a text is taken as it is, and other fields are refused
    split at h
    · next htype =>
      split at h
      · next n hn => exact .inr ⟨htype, by rw [hn]; rfl⟩
      · exact nomatch h
    · next htype => exact .inl htype
    · exact nomatch h
  · simp only [hindexed, Bool.not_false, if_true] at h
    exact nomatch h

/-- **If the fields that it names are of the kind that it looks for, a clause is only translated if they can
serve it.** -/
theorem served_of_ofClause {c : Clause} {o : Option Query} (htyped : c.Typed schema)
    (h : ofClause schema c = .ok o) : c.Served schema := by
  cases c with
  | exact field value =>
    obtain ⟨q, hq, -⟩ := Except.bind_eq_ok.1 h
    exact takes_of_exactTerm hq
  | exactSet field values op =>
    obtain ⟨terms, hterms, -⟩ := Except.bind_eq_ok.1 h
    intro value hvalue
    -- all literals of the set have been translated
    obtain ⟨q, hq⟩ := Except.exists_mapM_eq_ok.1 ⟨terms, hterms⟩ value hvalue
    exact takes_of_exactTerm hq
  | pattern target text =>
    refine or_iff_not_imp_left.2 fun hnonempty => ?_
    unfold ofClause ofPattern at h
    simp only [List.isEmpty_iff, hnonempty, if_false] at h
    obtain ⟨f, hf, h⟩ := Except.bind_eq_ok.1 h
    have hkeyword := fieldNamed_eq_ok.1 hf
    refine ⟨⟨f, hkeyword, htyped _ List.mem_cons_self f hkeyword⟩, ?_⟩
    -- the analyzed field is only asked for if the pattern has no wildcards
    refine or_iff_not_imp_left.2 fun hplain name hname => ?_
    rw [Option.mem_def] at hname
    simp only [hplain, Bool.false_eq_true, if_false, hname] at h
    obtain ⟨g, hg, -⟩ := Except.bind_eq_ok.1 h
    have hanalyzed := fieldNamed_eq_ok.1 hg
    exact ⟨g, hanalyzed, htyped name (List.mem_cons_of_mem _ (by simp [hname])) g hanalyzed⟩
  | path field text =>
    refine or_iff_not_imp_left.2 fun hnonempty => ?_
    unfold ofClause ofPath at h
    simp only [List.isEmpty_iff, hnonempty, if_false] at h
    obtain ⟨f, hf, -⟩ := Except.bind_eq_ok.1 h
    have hfield := fieldNamed_eq_ok.1 hf
    exact ⟨f, hfield, htyped f hfield⟩
  | range field least greatest =>
    obtain ⟨f, hf, -⟩ := Except.bind_eq_ok.1 h
    have hfield := fieldNamed_eq_ok.1 hf
    exact ⟨f, hfield, htyped f hfield⟩
  | codes field ns =>
    obtain ⟨f, hf, -⟩ := Except.bind_eq_ok.1 h
    have hfield := fieldNamed_eq_ok.1 hf
    exact ⟨f, hfield, htyped f hfield⟩

/-- If a step fails, then because an argument is refused or a query cannot be built. -/
def OnlyRefuses {α : Type} (x : Build α) : Prop :=
  ∀ e, x = .error e → e.kind = .invalidArgument ∨ e.kind = .queryBuilding

section OnlyRefuses

variable {α β : Type}

theorem OnlyRefuses.ok (a : α) : OnlyRefuses (.ok a) := fun _ h => nomatch h

theorem OnlyRefuses.bind {x : Build α} {f : α → Build β} (hx : OnlyRefuses x)
    (hf : ∀ a, x = .ok a → OnlyRefuses (f a)) : OnlyRefuses (x >>= f) := by
  intro e h
  rcases Except.bind_eq_error.1 h with h | ⟨a, ha, h⟩
  · exact hx e h
  · exact hf a ha e h

theorem OnlyRefuses.mapM {f : α → Build β} {l : List α} (hf : ∀ a ∈ l, OnlyRefuses (f a)) :
    OnlyRefuses (l.mapM f) := by
  intro e h
  obtain ⟨before, a, after, rfl, -, ha⟩ := Except.mapM_eq_error.1 h
  exact hf a (List.mem_append_right _ List.mem_cons_self) e ha

theorem onlyRefuses_fieldNamed (name : String) : OnlyRefuses (fieldNamed schema name) := by
  intro e h
  unfold fieldNamed at h
  split at h
  · exact nomatch h
  · exact .inl (Except.error.inj h ▸ rfl)

theorem onlyRefuses_exactTerm (name value : String) : OnlyRefuses (exactTerm schema name value) := by
  refine (onlyRefuses_fieldNamed name).bind fun f _ => ?_
  -- what cannot be looked up is an invalid argument, as is a text where a number is due
  cases f.isIndexed with
  | false => exact fun e h => .inl (Except.error.inj h ▸ rfl)
  | true =>
    simp only [Bool.not_true, Bool.false_eq_true, if_false]
    split
    · split
      · exact .ok _
      · exact fun e h => .inl (Except.error.inj h ▸ rfl)
    · exact .ok _
    · exact fun e h => .inr (Except.error.inj h ▸ rfl)

theorem onlyRefuses_ofRegex (field : String) (r : Regex) : OnlyRefuses (ofRegex field r) := by
  intro e h
  unfold ofRegex at h
  split at h
  · exact .inr (Except.error.inj h ▸ rfl)
  · exact nomatch h

theorem onlyRefuses_analyze {f : Field} (hf : f.HasTokens) (p : List Char) :
    OnlyRefuses (analyze f p) := by
  obtain ⟨htype, a, ha⟩ := hf
  rw [analyze, htype, ha]
  exact .ok _

theorem onlyRefuses_ofPattern {target : PatternTarget} {text : String}
    (htyped : (Clause.pattern target text).Typed schema) :
    OnlyRefuses (ofPattern schema target text) := by
  unfold ofPattern
  simp only
  split
  · exact .ok _
  refine (onlyRefuses_fieldNamed _).bind fun _ _ => ?_
  split
  · exact (onlyRefuses_ofRegex _ _).bind fun _ _ => .ok _
  split
  · exact .ok _
  -- a field that is not analyzed would fail here with another error, which is what the type excludes
  · next name hname =>
    refine (onlyRefuses_fieldNamed name).bind fun f hf => ?_
    have htokens : f.HasTokens :=
      htyped name (List.mem_cons_of_mem _ (by simp [hname])) f (fieldNamed_eq_ok.1 hf)
    refine (onlyRefuses_analyze htokens _).bind fun terms _ => ?_
    split
    · exact (onlyRefuses_ofRegex _ _).bind fun _ _ => .ok _
    · exact .ok _
    · exact .ok _

theorem onlyRefuses_ofPath (field text : String) : OnlyRefuses (ofPath schema field text) := by
  unfold ofPath
  simp only
  split
  · exact .ok _
  refine (onlyRefuses_fieldNamed _).bind fun _ _ => ?_
  split
  · exact (onlyRefuses_ofRegex _ _).bind fun _ _ => .ok _
  · exact .ok _

/-- **If the fields that it names are of the kind that it looks for, a clause that is refused is an invalid
argument or has a query that cannot be built.** -/
theorem onlyRefuses_ofClause {c : Clause} (htyped : c.Typed schema) : OnlyRefuses (ofClause schema c) := by
  cases c with
  | exact field value => exact (onlyRefuses_exactTerm field value).bind fun _ _ => .ok _
  | exactSet field values op =>
    exact (OnlyRefuses.mapM fun value _ => onlyRefuses_exactTerm field value).bind fun _ _ => .ok _
  | pattern target text =>
    show OnlyRefuses (ofPattern schema target text)
    exact onlyRefuses_ofPattern htyped
  | path field text =>
    show OnlyRefuses (ofPath schema field text)
    exact onlyRefuses_ofPath field text
  | range field least greatest =>
    refine (onlyRefuses_fieldNamed field).bind fun _ _ => ?_
    split
    · exact .ok _
    · exact .ok _
  | codes field ns => exact (onlyRefuses_fieldNamed field).bind fun _ _ => .ok _

theorem onlyRefuses_ofClauses {cs : List Clause} (htyped : ∀ c ∈ cs, c.Typed schema) :
    OnlyRefuses (ofClauses schema cs) :=
  (OnlyRefuses.mapM fun c hc => onlyRefuses_ofClause (htyped c hc)).bind fun _ _ => .ok _

end OnlyRefuses

/-- **A query that is built can be run on every snapshot, unless one of its clauses fails late.** If all
clauses name fields of the kind that they look for, none does, and what a field cannot serve is refused. -/
theorem refused_or_runs (schema : Schema) (cs : List Clause) :
    (∀ q, ofClauses schema cs = .ok q → ∀ s : Snapshot,
      (∃ found, s.run schema q = some found) ↔ ∀ c ∈ cs, ¬ c.FailsLate schema) ∧
    ((∀ c ∈ cs, c.Typed schema) →
      (∀ q, ofClauses schema cs = .ok q → ∀ s : Snapshot, ∃ found, s.run schema q = some found) ∧
      (∀ c ∈ cs, ¬ c.Served schema →
        (∃ e, ofClause schema c = .error e) ∧ ∃ e, ofClauses schema cs = .error e) ∧
      (∀ c ∈ cs, OnlyRefuses (ofClause schema c)) ∧ OnlyRefuses (ofClauses schema cs)) := by
  have hruns : ∀ q, ofClauses schema cs = .ok q → ∀ s : Snapshot,
      (∃ found, s.run schema q = some found) ↔ ∀ c ∈ cs, ¬ c.FailsLate schema := by
    intro q hq s
    rw [exists_run, isRunnable_ofClauses_iff hq]
  refine ⟨hruns, fun htyped => ⟨?_, ?_, fun c hc => onlyRefuses_ofClause (htyped c hc),
    onlyRefuses_ofClauses htyped⟩⟩
  · intro q hq s
    -- all clauses are translated, so they are served, and what is served does not fail late
    refine (hruns q hq s).2 fun c hc => ?_
    obtain ⟨o, ho⟩ := exists_ofClauses.1 ⟨q, hq⟩ c hc
    exact (served_of_ofClause (htyped c hc) ho).not_failsLate
  · intro c hc hunserved
    -- a clause that is not served cannot be translated, and the list of clauses is not either
    have hrefused : ¬ ∃ o, ofClause schema c = .ok o :=
      fun ⟨o, ho⟩ => hunserved (served_of_ofClause (htyped c hc) ho)
    refine ⟨?_, ?_⟩
    · cases h : ofClause schema c with
      | error e => exact ⟨e, rfl⟩
      | ok o => exact absurd ⟨o, h⟩ hrefused
    · cases h : ofClauses schema cs with
      | error e => exact ⟨e, rfl⟩
      | ok q => exact absurd (exists_ofClauses.1 ⟨q, h⟩ c hc) hrefused

/-- Codes and a range are built and run on the tagged hosts, and a literal of the stored text, which cannot
be looked up, is refused. -/
theorem refused_or_runs_codes :
    (∃ q, ofClauses .events [.codes Field.status [0, 1], .range Field.count (some 2) none] = .ok q ∧
      ∃ found, taggedHosts.run .events q = some found) ∧
    ∃ e, ofClauses .events [.range Field.count (some 2) none, .exact Field.eventJson "x"] = .error e ∧
      (e.kind = .invalidArgument ∨ e.kind = .queryBuilding) := by
  have hrange : (Clause.range Field.count (some 2) none).Typed .events := by
    intro f hf
    obtain rfl := Option.some.inj hf
    exact ⟨rfl, rfl⟩
  have hcodes : (Clause.codes Field.status [0, 1]).Typed .events := by
    intro f hf
    obtain rfl := Option.some.inj hf
    exact ⟨rfl, rfl⟩
  -- the stored text is not indexed
  have hunserved : ¬ (Clause.exact Field.eventJson "x").Served .events := by
    rintro ⟨f, hf, hindexed, -⟩
    obtain rfl := Option.some.inj hf
    exact nomatch hindexed
  obtain ⟨-, hbuilt⟩ := refused_or_runs .events
    [.codes Field.status [0, 1], .range Field.count (some 2) none]
  obtain ⟨-, hrefused⟩ := refused_or_runs .events
    [.range Field.count (some 2) none, .exact Field.eventJson "x"]
  constructor
  · obtain ⟨hrun, -⟩ := hbuilt (List.forall_mem_cons.2 ⟨hcodes, List.forall_mem_singleton.2 hrange⟩)
    obtain ⟨q, hq⟩ : ∃ q, ofClauses .events
        [.codes Field.status [0, 1], .range Field.count (some 2) none] = .ok q := ⟨_, rfl⟩
    exact ⟨q, hq, hrun q hq taggedHosts⟩
  · obtain ⟨-, hserved, -, honly⟩ :=
      hrefused (List.forall_mem_cons.2 ⟨hrange, List.forall_mem_singleton.2 trivial⟩)
    obtain ⟨-, e, he⟩ := hserved (.exact Field.eventJson "x") (by simp) hunserved
    exact ⟨e, he, honly e he⟩

/-- **A query may be built that no snapshot can run.** Codes are looked for in the stored text without a look
at whether it can be looked up. -/
theorem run_codes_of_json :
    ∃ q, ofClauses .events [.codes Field.eventJson [1]] = .ok q ∧
      ∀ s : Snapshot, s.run .events q = none :=
  ⟨.term Field.eventJson (.int 1), rfl, fun _ => rfl⟩

end Query

end EventCatalog
