import EventCatalog.Index.Collect
import EventCatalog.Proofs.StructuredFilters

/-!
# Lists of clauses

A list of clauses is a conjunction, whatever its shape. It is refused if one of its clauses is, with the
error of the first of them (`Query.ofClauses_eq_error`), and its query can be run if those of its clauses
can be run (`Clause.Runs`). What a snapshot has by a list of clauses (`Snapshot.found?`) is then what each
of them selects (`Snapshot.found?_of_runs`). So it does not matter in which order or how often clauses stand
in the list (`Snapshot.found?_congr`), and two lists together have what both of them have
(`Snapshot.found?_append`).

A set of values or of codes is a clause that has parts itself. It can be run if all of its parts can be, and
has what one of them has (`Snapshot.found?_any`), or what all of them have (`Snapshot.found?_all`).
-/

namespace EventCatalog

/-! ### Clauses that can be run -/

namespace Clause

variable {schema : Schema} {d : Document} {field : String}

/-- The clause can be translated, and its query can be run. -/
def Runs (schema : Schema) (c : Clause) : Prop :=
  (∃ o, Query.ofClause schema c = .ok o) ∧ ¬ c.FailsLate schema

instance (schema : Schema) (c : Clause) (d : Document) : Decidable (c.Selects schema d) :=
  match h : Query.ofClause schema c with
  | .ok _ => decidable_of_iff _ (selects_iff h).symm
  | .error _ => isFalse fun ⟨_, ho, _⟩ => nomatch h.symm.trans ho

theorem runs_exact {v : String} :
    (exact field v).Runs schema ↔ ∃ q, Query.exactTerm schema field v = .ok q := by
  constructor
  -- a literal never fails late, since its field is looked at when it is translated
  · rintro ⟨⟨o, ho⟩, -⟩
    obtain ⟨q, hq, -⟩ := Except.bind_eq_ok.1 ho
    exact ⟨q, hq⟩
  · rintro ⟨q, hq⟩
    exact ⟨⟨some q, Except.bind_eq_ok.2 ⟨q, hq, rfl⟩⟩, id⟩

theorem selects_exact {v : String} {q : Query} (h : Query.exactTerm schema field v = .ok q) :
    (exact field v).Selects schema d ↔ q.selects schema d = true := by
  have hclause : Query.ofClause schema (exact field v) = .ok (some q) :=
    Except.bind_eq_ok.2 ⟨q, h, rfl⟩
  rw [selects_iff hclause]
  simp

theorem ofClause_exactSet {values : List String} {terms : List Query} (op : Combine)
    (h : values.mapM (Query.exactTerm schema field) = .ok terms) :
    Query.ofClause schema (exactSet field values op) =
      .ok (Query.combine (match op with | .all => .must | .any => .should) terms) :=
  Except.bind_eq_ok.2 ⟨terms, h, rfl⟩

/-- A set of values can be run if each of its literals can be. -/
theorem runs_exactSet (values : List String) (op : Combine) :
    (exactSet field values op).Runs schema ↔ ∀ v ∈ values, (exact field v).Runs schema := by
  simp only [runs_exact, ← Except.exists_mapM_eq_ok]
  constructor
  · rintro ⟨⟨o, ho⟩, -⟩
    obtain ⟨terms, hterms, -⟩ := Except.bind_eq_ok.1 ho
    exact ⟨terms, hterms⟩
  · rintro ⟨terms, hterms⟩
    exact ⟨⟨_, ofClause_exactSet op hterms⟩, id⟩

/-- What literals that are translated one by one select, they select together. -/
private theorem selects_terms {values : List String} {terms : List Query}
    (h : List.Forall₂ (fun v q => Query.exactTerm schema field v = .ok q) values terms) :
    ((∃ v ∈ values, (exact field v).Selects schema d) ↔ ∃ q ∈ terms, q.selects schema d = true) ∧
      ((∀ v ∈ values, (exact field v).Selects schema d) ↔
        ∀ q ∈ terms, q.selects schema d = true) := by
  induction h with
  | nil => simp
  | cons hv _ ih =>
    rw [List.exists_mem_cons_iff, List.exists_mem_cons_iff, List.forall_mem_cons, List.forall_mem_cons,
      selects_exact hv]
    exact ⟨or_congr Iff.rfl ih.1, and_congr Iff.rfl ih.2⟩

/-- Any of the values: there is one whose literal selects the document. -/
theorem selects_exactSet_any {values : List String} (hne : values ≠ [])
    (h : ∀ v ∈ values, (exact field v).Runs schema) :
    (exactSet field values .any).Selects schema d ↔
      ∃ v ∈ values, (exact field v).Selects schema d := by
  obtain ⟨terms, hterms⟩ := Except.exists_mapM_eq_ok.2 fun v hv => runs_exact.1 (h v hv)
  have hpaired := Except.mapM_eq_ok.1 hterms
  -- parts of which one has to be met are no constraint if there are none, but there are some
  have hsome : terms ≠ [] := by
    intro hnil
    rw [hnil] at hpaired
    exact hne (List.forall₂_nil_right_iff.1 hpaired)
  rw [selects_iff (ofClause_exactSet .any hterms), Query.selects_combine_should,
    (selects_terms hpaired).1]
  exact or_iff_right hsome

theorem selects_exactSet_all {values : List String}
    (h : ∀ v ∈ values, (exact field v).Runs schema) :
    (exactSet field values .all).Selects schema d ↔
      ∀ v ∈ values, (exact field v).Selects schema d := by
  obtain ⟨terms, hterms⟩ := Except.exists_mapM_eq_ok.2 fun v hv => runs_exact.1 (h v hv)
  rw [selects_iff (ofClause_exactSet .all hterms), Query.selects_combine_must,
    (selects_terms (Except.mapM_eq_ok.1 hterms)).2]

theorem ofClause_codes {f : Field} (hf : Query.fieldNamed schema field = .ok f) (ns : List Int) :
    Query.ofClause schema (codes field ns) =
      .ok (Query.combine .should (ns.map fun n => .term field (.int n))) :=
  Except.bind_eq_ok.2 ⟨f, hf, rfl⟩

/-- Codes can be run if the field is known and can be looked up, whatever the codes are. -/
theorem runs_codes {ns : List Int} (hne : ns ≠ []) :
    (codes field ns).Runs schema ↔
      (∃ f, Query.fieldNamed schema field = .ok f) ∧ Query.isSearchable schema field = true := by
  constructor
  · rintro ⟨⟨o, ho⟩, hlate⟩
    obtain ⟨f, hf, -⟩ := Except.bind_eq_ok.1 ho
    exact ⟨⟨f, hf⟩, by_contra fun h => hlate ⟨hne, Bool.eq_false_iff.2 h⟩⟩
  · rintro ⟨⟨f, hf⟩, h⟩
    exact ⟨⟨_, ofClause_codes hf ns⟩, fun hlate => Bool.false_ne_true (hlate.2.symm.trans h)⟩

/-- There is a code in the field that is one of the set. -/
theorem selects_codes {ns : List Int} (hne : ns ≠ []) (h : (codes field ns).Runs schema) :
    (codes field ns).Selects schema d ↔ ∃ n ∈ ns, (codes field [n]).Selects schema d := by
  obtain ⟨⟨f, hf⟩, -⟩ := (runs_codes hne).1 h
  -- a single code is a term, without a combination around it
  have hsingle : ∀ n, (codes field [n]).Selects schema d ↔
      (Query.term field (.int n)).selects schema d = true := by
    intro n
    rw [selects_iff (ofClause_codes hf [n])]
    simp [Query.combine]
  rw [selects_iff (ofClause_codes hf ns), Query.selects_combine_should]
  simp [hsingle, hne]

end Clause

/-! ### What a snapshot has by a list of clauses -/

/-- A step that yields something for every element of a list does so for the list. -/
theorem Option.mapM_eq_some {α β : Type} {f : α → Option β} {g : α → β} {l : List α}
    (h : ∀ a ∈ l, f a = some (g a)) : l.mapM f = some (l.map g) := by
  induction l with
  | nil => rfl
  | cons a rest ih =>
    obtain ⟨ha, hrest⟩ := List.forall_mem_cons.1 h
    rw [List.mapM_cons, ha, ih hrest]
    rfl

theorem Option.mapM_eq_none {α β : Type} {f : α → Option β} {l : List α} {a : α} (ha : a ∈ l)
    (h : f a = none) : l.mapM f = none := by
  induction l with
  | nil => exact absurd ha List.not_mem_nil
  | cons b rest ih =>
    rw [List.mapM_cons]
    rcases List.mem_cons.1 ha with rfl | ha
    · rw [h]
      rfl
    · rw [ih ha]
      cases f b <;> rfl

namespace Snapshot

variable {schema : Schema} {s : Snapshot} {cs ds : List Clause}

/-- What a snapshot has by a list of clauses; nothing is said if they are refused or cannot be run. -/
def found? (schema : Schema) (s : Snapshot) (cs : List Clause) : Option (List Document) := do
  let q ← (Query.ofClauses schema cs).toOption
  let selected ← s.run schema q
  return selected.flatten

/-- The documents of a snapshot that are in one of the parts. -/
def union (s : Snapshot) (parts : List (List Document)) : List Document :=
  s.documents.filter fun d => parts.any (·.contains d)

/-- The documents of a snapshot that are in all of the parts. -/
def intersection (s : Snapshot) (parts : List (List Document)) : List Document :=
  s.documents.filter fun d => parts.all (·.contains d)

/-- **Clauses that can be run have what each of them selects.** -/
theorem found?_of_runs (h : ∀ c ∈ cs, c.Runs schema) :
    s.found? schema cs = some (s.documents.filter fun d => ∀ c ∈ cs, c.Selects schema d) := by
  obtain ⟨q, hq⟩ := Query.exists_ofClauses.2 fun c hc => (h c hc).1
  have hrun : q.isRunnable schema = true :=
    (Query.isRunnable_ofClauses_iff hq).2 fun c hc => (h c hc).2
  -- the query selects what the clauses select, from one segment after the other
  have hselected : (s.documents.filter fun d => ∀ c ∈ cs, c.Selects schema d) =
      (s.segments.map fun seg => seg.live.filter fun d => q.selects schema d).flatten := by
    rw [documents, List.filter_flatMap, List.flatMap_def]
    congr 2 with seg d
    simp [← Query.selects_ofClauses hq]
  rw [found?, hq, hselected]
  simp [Except.toOption, run, hrun]

theorem found?_eq_none (h : ¬ ∀ c ∈ cs, c.Runs schema) : s.found? schema cs = none := by
  unfold found?
  cases hq : Query.ofClauses schema cs with
  | error e => rfl
  | ok q =>
    -- the query could only be run if every clause could be
    have hrun : ¬ q.isRunnable schema = true := by
      intro hrun
      exact h fun c hc => ⟨Query.exists_ofClauses.1 ⟨q, hq⟩ c hc,
        (Query.isRunnable_ofClauses_iff hq).1 hrun c hc⟩
    simp [Except.toOption, run, hrun]

/-- **Neither the order nor repetitions matter.** -/
theorem found?_congr (h : ∀ c, c ∈ cs ↔ c ∈ ds) : s.found? schema cs = s.found? schema ds := by
  -- whether all clauses can be run, and what all of them select, is a matter of the members alone
  by_cases hruns : ∀ c ∈ cs, c.Runs schema
  · rw [found?_of_runs hruns, found?_of_runs fun c hc => hruns c ((h c).2 hc)]
    simp only [h]
  · rw [found?_eq_none hruns, found?_eq_none fun hds => hruns fun c hc => hds c ((h c).1 hc)]

/-- **Two lists together have what both of them have.** -/
theorem found?_append :
    s.found? schema (cs ++ ds) = do
      let found ← s.found? schema cs
      let found' ← s.found? schema ds
      return s.intersection [found, found'] := by
  by_cases hcs : ∀ c ∈ cs, c.Runs schema
  · by_cases hds : ∀ c ∈ ds, c.Runs schema
    · rw [found?_of_runs (List.forall_mem_append.2 ⟨hcs, hds⟩), found?_of_runs hcs, found?_of_runs hds]
      refine congrArg some (List.filter_congr fun d hd => ?_)
      simp [hd, or_imp, forall_and, Bool.decide_and]
    -- one list that cannot be run spoils both
    · rw [found?_eq_none hds, found?_eq_none fun h => hds (List.forall_mem_append.1 h).2]
      cases s.found? schema cs <;> rfl
  · rw [found?_eq_none hcs, found?_eq_none fun h => hcs (List.forall_mem_append.1 h).1]
    rfl

variable {α : Type} {c : Clause} {part : α → Clause} {l : List α}

/-- **A clause with parts** has what is made of the documents that its parts have. -/
private theorem found?_parts {pick : List (List Document) → List Document}
    (hruns : c.Runs schema ↔ ∀ a ∈ l, (part a).Runs schema)
    (hpick : c.Runs schema → (s.documents.filter fun d => c.Selects schema d) =
      pick (l.map fun a => s.documents.filter fun d => (part a).Selects schema d)) :
    s.found? schema [c] = (l.mapM fun a => s.found? schema [part a]).map pick := by
  by_cases hc : c.Runs schema
  · have hparts : (l.mapM fun a => s.found? schema [part a]) =
        some (l.map fun a => s.documents.filter fun d => (part a).Selects schema d) := by
      refine Option.mapM_eq_some fun a ha => ?_
      rw [found?_of_runs (List.forall_mem_singleton.2 (hruns.1 hc a ha))]
      simp only [List.forall_mem_singleton]
    rw [hparts, Option.map_some, ← hpick hc, found?_of_runs (List.forall_mem_singleton.2 hc)]
    simp only [List.forall_mem_singleton]
  · -- a part that cannot be run is one of which nothing is said
    obtain ⟨a, ha, hfails⟩ : ∃ a ∈ l, ¬ (part a).Runs schema := by
      simpa only [not_forall, exists_prop] using mt hruns.2 hc
    have hpart : s.found? schema [part a] = none :=
      found?_eq_none fun h => hfails (List.forall_mem_singleton.1 h)
    rw [Option.mapM_eq_none ha hpart, found?_eq_none fun h => hc (List.forall_mem_singleton.1 h),
      Option.map_none]

/-- **A clause that asks for one of its parts** has what one of them has. -/
theorem found?_any (hruns : c.Runs schema ↔ ∀ a ∈ l, (part a).Runs schema)
    (hselects : c.Runs schema → ∀ d, c.Selects schema d ↔ ∃ a ∈ l, (part a).Selects schema d) :
    s.found? schema [c] = (l.mapM fun a => s.found? schema [part a]).map s.union := by
  refine found?_parts hruns fun hc => List.filter_congr fun d hd => ?_
  rw [Bool.eq_iff_iff, decide_eq_true_iff, hselects hc d]
  simp [hd]

/-- **A clause that asks for all of its parts** has what all of them have. -/
theorem found?_all (hruns : c.Runs schema ↔ ∀ a ∈ l, (part a).Runs schema)
    (hselects : c.Runs schema → ∀ d, c.Selects schema d ↔ ∀ a ∈ l, (part a).Selects schema d) :
    s.found? schema [c] = (l.mapM fun a => s.found? schema [part a]).map s.intersection := by
  refine found?_parts hruns fun hc => List.filter_congr fun d hd => ?_
  rw [Bool.eq_iff_iff, decide_eq_true_iff, hselects hc d]
  simp [hd]

theorem found?_exactSet_any {field : String} {values : List String} (hne : values ≠ []) :
    s.found? schema [.exactSet field values .any] =
      (values.mapM fun v => s.found? schema [.exact field v]).map s.union := by
  have hruns : (Clause.exactSet field values .any).Runs schema ↔ _ := Clause.runs_exactSet values .any
  exact found?_any hruns fun hc d => Clause.selects_exactSet_any hne (hruns.1 hc)

theorem found?_exactSet_all {field : String} {values : List String} :
    s.found? schema [.exactSet field values .all] =
      (values.mapM fun v => s.found? schema [.exact field v]).map s.intersection := by
  have hruns : (Clause.exactSet field values .all).Runs schema ↔ _ := Clause.runs_exactSet values .all
  exact found?_all hruns fun hc d => Clause.selects_exactSet_all (hruns.1 hc)

theorem found?_codes {field : String} {ns : List Int} (hne : ns ≠ []) :
    s.found? schema [.codes field ns] =
      (ns.mapM fun n => s.found? schema [.codes field [n]]).map s.union := by
  refine found?_any ?_ fun hc d => Clause.selects_codes hne hc
  -- whether codes can be run is a matter of the field alone
  simp only [Clause.runs_codes hne, Clause.runs_codes (List.cons_ne_nil _ _)]
  obtain ⟨n, hn⟩ := List.exists_mem_of_ne_nil _ hne
  exact ⟨fun h _ _ => h, fun h => h n hn⟩

end Snapshot

/-! ### The conjunction -/

namespace Query

variable {schema : Schema} {cs : List Clause} {q : Query}

/-- What is said of the query of a clause, if it has one. -/
theorem forall_ofClause {c : Clause} {o : Option Query} (ho : ofClause schema c = .ok o)
    {P : Query → Prop} : (∀ p, ofClause schema c = .ok (some p) → P p) ↔ ∀ p ∈ o, P p := by
  simp only [ho, Except.ok.injEq, Option.mem_def]

theorem isRunnable_ofClauses_parts (h : ofClauses schema cs = .ok q) :
    q.isRunnable schema = true ↔
      ∀ c ∈ cs, ∀ p, ofClause schema c = .ok (some p) → p.isRunnable schema = true := by
  rw [isRunnable_ofClauses_iff h]
  refine forall₂_congr fun c hc => ?_
  -- the query was built, so each clause has been translated
  obtain ⟨o, ho⟩ := exists_ofClauses.1 ⟨q, h⟩ c hc
  rw [← isRunnable_ofClause ho, forall_ofClause ho]

theorem selects_ofClauses_parts (h : ofClauses schema cs = .ok q) (d : Document) :
    q.selects schema d = true ↔
      ∀ c ∈ cs, ∀ p, ofClause schema c = .ok (some p) → p.selects schema d = true := by
  rw [selects_ofClauses h d]
  refine forall₂_congr fun c hc => ?_
  obtain ⟨o, ho⟩ := exists_ofClauses.1 ⟨q, h⟩ c hc
  rw [Clause.selects_iff ho, forall_ofClause ho]

/-- A query runs on a snapshot if an index with the schema can run it, whatever the snapshot holds. -/
theorem exists_run (s : Snapshot) : (∃ found, s.run schema q = some found) ↔ q.isRunnable schema = true := by
  unfold Snapshot.run
  -- whether it runs is decided before any document is looked at
  split <;> simp_all

/-- **A list of clauses is a conjunction, whatever its shape.** -/
theorem clauses_conjunction (schema : Schema) (cs : List Clause) :
    ((∃ q, ofClauses schema cs = .ok q) ↔ ∀ c ∈ cs, ∃ o, ofClause schema c = .ok o) ∧
    (∀ e, ofClauses schema cs = .error e ↔ ∃ before c after, cs = before ++ c :: after ∧
      (∀ b ∈ before, ∃ o, ofClause schema b = .ok o) ∧ ofClause schema c = .error e) ∧
    (∀ q, ofClauses schema cs = .ok q →
      (∀ d : Document, q.selects schema d = true ↔
        ∀ c ∈ cs, ∀ p, ofClause schema c = .ok (some p) → p.selects schema d = true) ∧
      ∀ s : Snapshot, (∃ found, s.run schema q = some found) ↔
        ∀ c ∈ cs, ∀ p, ofClause schema c = .ok (some p) → ∃ found, s.run schema p = some found) ∧
    ∀ s : Snapshot,
      (∀ ds, (∀ c, c ∈ cs ↔ c ∈ ds) → s.found? schema cs = s.found? schema ds) ∧
      (∀ ds, s.found? schema (cs ++ ds) = do
        let found ← s.found? schema cs
        let found' ← s.found? schema ds
        return s.intersection [found, found']) ∧
      (∀ field values, values ≠ [] →
        s.found? schema [.exactSet field values .any] =
          (values.mapM fun v => s.found? schema [.exact field v]).map s.union ∧
        s.found? schema [.exactSet field values .all] =
          (values.mapM fun v => s.found? schema [.exact field v]).map s.intersection) ∧
      ∀ field ns, ns ≠ [] → s.found? schema [.codes field ns] =
        (ns.mapM fun n => s.found? schema [.codes field [n]]).map s.union := by
  refine ⟨exists_ofClauses, fun e => ofClauses_eq_error, fun q hq => ⟨selects_ofClauses_parts hq, ?_⟩,
    fun s => ⟨fun ds => Snapshot.found?_congr, fun ds => Snapshot.found?_append, ?_, ?_⟩⟩
  · intro s
    simp only [exists_run]
    exact isRunnable_ofClauses_parts hq
  · exact fun field values hne => ⟨Snapshot.found?_exactSet_any hne, Snapshot.found?_exactSet_all⟩
  · exact fun field ns hne => Snapshot.found?_codes hne

/-- Two hosts with a tag, one of them also with another. -/
def taggedHosts : Snapshot :=
  ⟨0, (Catalog.indexOf [Catalog.hostTagged 1 ["core"], Catalog.hostTagged 2 ["core", "web"]]).segments, 0, false⟩

/-- Tags asked for twice and in another order, and an unknown field before a field that has no codes. -/
theorem clauses_conjunction_tags :
    taggedHosts.found? .events [.exactSet Field.tag ["web", "edge"] .any, .codes Field.status [0, 1],
        .exactSet Field.tag ["web", "edge"] .any] =
      some [.ofEvent (Catalog.hostTagged 2 ["core", "web"])] ∧
    ofClauses .events [.exact Field.tag "web", .exact "rank" "1", .exact Field.eventJson "x"] =
      .error (.ofText .invalidArgument "unknown field: rank") := by
  obtain ⟨-, -, -, hfound⟩ := clauses_conjunction .events
    [.exactSet Field.tag ["web", "edge"] .any, .codes Field.status [0, 1],
      .exactSet Field.tag ["web", "edge"] .any]
  obtain ⟨hcongr, -⟩ := hfound taggedHosts
  obtain ⟨-, herror, -⟩ := clauses_conjunction .events
    [.exact Field.tag "web", .exact "rank" "1", .exact Field.eventJson "x"]
  constructor
  · rw [hcongr [.codes Field.status [0, 1], .exactSet Field.tag ["web", "edge"] .any] (by simp)]
    rfl
  · exact (herror _).2 ⟨[.exact Field.tag "web"], .exact "rank" "1", [.exact Field.eventJson "x"], rfl,
      List.forall_mem_singleton.2 ⟨_, rfl⟩, rfl⟩

end Query

end EventCatalog
