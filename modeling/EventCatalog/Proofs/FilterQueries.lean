import Mathlib.Logic.Basic
import EventCatalog.Search.Translate

/-!
# The queries of filters

Every query that is built of a filter can be run by the event index (`Query.isRunnable_ofFilter`), so a
list fails only while it is translated. A step of the translation may ask for a field that cannot be
looked up or is of the wrong type, and would then build a query that cannot be run. Which clauses do that is
said by `Clause.FailsLate`; no others do (`Query.isRunnable_ofClauses_iff`). A clause that fits the schema
does not, and the clauses of a filter fit the event index, whatever the filter holds (`Filter.clauses_fit`).
-/

namespace EventCatalog

/-- What two steps yield, each of them has yielded. -/
theorem Except.bind_eq_ok {ε α β : Type} {x : Except ε α} {f : α → Except ε β} {b : β} :
    (x >>= f) = .ok b ↔ ∃ a, x = .ok a ∧ f a = .ok b := by
  cases x with
  | error e => exact ⟨fun h => (nomatch h), fun ⟨_, h, _⟩ => (nomatch h)⟩
  | ok a =>
    refine ⟨fun h => ⟨a, rfl, h⟩, ?_⟩
    rintro ⟨a', ha, h⟩
    rw [Except.ok.inj ha]
    exact h

/-- Two steps fail where the first of them does, or else the second. -/
theorem Except.bind_eq_error {ε α β : Type} {x : Except ε α} {f : α → Except ε β} {e : ε} :
    (x >>= f) = .error e ↔ x = .error e ∨ ∃ a, x = .ok a ∧ f a = .error e := by
  cases x with
  | error e' =>
    refine ⟨fun h => .inl (congrArg _ (Except.error.inj h)), ?_⟩
    rintro (h | ⟨_, h, -⟩)
    · exact congrArg _ (Except.error.inj h)
    · exact nomatch h
  | ok a =>
    refine ⟨fun h => .inr ⟨a, rfl, h⟩, ?_⟩
    rintro (h | ⟨a', ha, h⟩)
    · exact nomatch h
    · rw [Except.ok.inj ha]
      exact h

/-- What holds of everything that a step yields holds of all that it yields of a list. -/
theorem Except.forall_of_mapM {ε α β : Type} {f : α → Except ε β} {P : β → Prop} {l : List α}
    {bs : List β} (hstep : ∀ a ∈ l, ∀ b, f a = .ok b → P b) (h : l.mapM f = .ok bs) :
    ∀ b ∈ bs, P b := by
  induction l generalizing bs with
  | nil =>
    cases h
    exact fun b hb => absurd hb List.not_mem_nil
  | cons a rest ih =>
    rw [List.mapM_cons] at h
    obtain ⟨b, hb, h⟩ := Except.bind_eq_ok.1 h
    obtain ⟨bs, hbs, h⟩ := Except.bind_eq_ok.1 h
    cases h
    intro c hc
    rcases List.mem_cons.1 hc with rfl | hc
    · exact hstep a (by simp) _ hb
    · exact ih (fun a ha => hstep a (List.mem_cons_of_mem _ ha)) hbs c hc

/-- What a clause asks of a schema for its query to be one that can be run. -/
def Clause.Fits (schema : Schema) : Clause → Prop
  | .exact _ _ => True
  | .exactSet _ _ _ => True
  | .pattern target _ => target.analyzed = none → Query.isSearchable schema target.keyword = true
  | .path field _ => Query.isSearchable schema field = true
  | .range field _ _ => ∃ f, schema.field? field = some f ∧ f.type = .integer
  | .codes field _ => Query.isSearchable schema field = true

/-- If a clause is translated, its query cannot be run: it asks for a term of a field that cannot be looked
up, or for an interval of a field without integers. -/
def Clause.FailsLate (schema : Schema) : Clause → Prop
  | .exact _ _ => False
  | .exactSet _ _ _ => False
  | .pattern target text => target.analyzed = none ∧ Glob.normalize text ≠ [] ∧
      Glob.hasWildcard (Glob.normalize text) = false ∧
      Query.isSearchable schema target.keyword = false
  | .path field text => Glob.normalize text ≠ [] ∧
      Glob.hasWildcard (Glob.completePath (Glob.normalize text)) = false ∧
      Query.isSearchable schema field = false
  | .range field least greatest => ¬ (least = none ∧ greatest = none) ∧
      ¬ ∃ f, schema.field? field = some f ∧ f.type = .integer
  | .codes field ns => ns ≠ [] ∧ Query.isSearchable schema field = false

theorem Clause.Fits.not_failsLate {schema : Schema} {c : Clause} (h : c.Fits schema) :
    ¬ c.FailsLate schema := by
  intro hlate
  cases c with
  | exact field value => exact hlate
  | exactSet field values op => exact hlate
  | pattern target pattern => exact Bool.false_ne_true (hlate.2.2.2.symm.trans (h hlate.1))
  | path field pattern => exact Bool.false_ne_true (hlate.2.2.symm.trans h)
  | range field least greatest => exact hlate.2 h
  | codes field codes => exact Bool.false_ne_true (hlate.2.symm.trans h)

namespace Query

variable {schema : Schema}

theorem areRunnable_map (occur : Occur) (qs : List Query) :
    areRunnable schema (qs.map fun q => (occur, q)) = qs.all (isRunnable schema) := by
  induction qs with
  | nil => rfl
  | cons q qs ih => rw [List.map_cons, areRunnable, ih, List.all_cons]

/-- **Queries can be run together** if each of them can be run. -/
theorem isRunnable_combine (occur : Occur) (qs : List Query) :
    (∀ q ∈ combine occur qs, q.isRunnable schema = true) ↔ ∀ q ∈ qs, q.isRunnable schema = true := by
  match qs with
  | [] => exact ⟨fun _ q hq => absurd hq List.not_mem_nil, fun _ q hq => nomatch hq⟩
  | [q'] => simp [combine]
  | q₁ :: q₂ :: rest =>
    simp only [combine, Option.mem_some_iff, forall_eq', isRunnable, areRunnable_map, List.all_eq_true]

/-- A field that is found by its name is that of the schema. -/
theorem field?_of_fieldNamed {name : String} {f : Field} (h : fieldNamed schema name = .ok f) :
    schema.field? name = some f := by
  unfold fieldNamed at h
  split at h
  · next g hg => rw [hg, Except.ok.inj h]
  · exact nomatch h

/-- A literal is looked up only in a field that can be looked up. -/
theorem isRunnable_exactTerm {name value : String} {q : Query}
    (h : exactTerm schema name value = .ok q) : q.isRunnable schema = true := by
  unfold exactTerm at h
  obtain ⟨f, hf, h⟩ := Except.bind_eq_ok.1 h
  by_cases hindexed : f.isIndexed = true
  -- the field is indexed, so a term of it can be looked up, a text or a number
  · have hterm : ∀ v, (Query.term name v).isRunnable schema = true := by
      intro v
      rw [isRunnable, isSearchable, field?_of_fieldNamed hf]
      exact hindexed
    simp only [hindexed, Bool.not_true, Bool.false_eq_true, if_false] at h
    split at h
    · split at h
      · exact Except.ok.inj h ▸ hterm _
      · exact nomatch h
    · exact Except.ok.inj h ▸ hterm _
    · exact nomatch h
  · simp only [hindexed, Bool.not_false, if_true] at h
    exact nomatch h

/-- The tokens of a pattern are looked up only in a field that has tokens. -/
theorem isIndexed_of_analyze {f : Field} {p : List Char} {terms : List (Nat × String)}
    (h : analyze f p = .ok terms) : f.isIndexed = true := by
  unfold analyze at h
  split at h
  · next hindexing => simp [Field.isIndexed, hindexing]
  · next hindexing => simp [Field.isIndexed, hindexing]
  · exact nomatch h
  · exact nomatch h
  · exact nomatch h

theorem isRunnable_ofRegex {field : String} {r : Regex} {q : Query}
    (h : ofRegex field r = .ok q) : q.isRunnable schema = true := by
  unfold ofRegex at h
  split at h
  · exact nomatch h
  · exact Except.ok.inj h ▸ rfl

/-- A term can be run unless its field cannot be looked up. -/
private theorem isRunnable_term {field : String} {v : FieldValue} :
    (∀ q ∈ some (Query.term field v), q.isRunnable schema = true) ↔
      ¬ isSearchable schema field = false := by
  rw [Bool.not_eq_false]
  exact ⟨fun h => h _ rfl, fun h q hq => Option.some.inj hq ▸ h⟩

/-- What comes of a pattern can be run: an expression always, tokens in the field that they are tokens of,
and a literal of the keyword if that can be looked up. -/
theorem isRunnable_ofPattern {target : PatternTarget} {pattern : String} {o : Option Query}
    (h : ofPattern schema target pattern = .ok o) :
    (∀ q ∈ o, q.isRunnable schema = true) ↔ ¬ Clause.FailsLate schema (.pattern target pattern) := by
  unfold ofPattern at h
  simp only at h
  split at h
  · next hempty =>
    -- a blank pattern is no constraint, and cannot fail late
    cases h
    exact iff_of_true nofun fun hlate => hlate.2.1 (List.isEmpty_iff.1 hempty)
  · next hnonempty =>
    obtain ⟨_, -, h⟩ := Except.bind_eq_ok.1 h
    split at h
    · next hglob =>
      obtain ⟨q', hq', h⟩ := Except.bind_eq_ok.1 h
      cases h
      refine iff_of_true ?_ fun hlate => Bool.false_ne_true (hlate.2.2.1.symm.trans hglob)
      exact fun q hq => Option.some.inj hq ▸ isRunnable_ofRegex hq'
    · next hplain =>
      split at h
      -- a literal of the keyword: it is looked up without a look at the field
      · next hnone =>
        cases h
        rw [isRunnable_term, not_iff_not]
        refine ⟨fun hfield => ⟨hnone, ?_, by simpa using hplain, hfield⟩, fun hlate => hlate.2.2.2⟩
        exact fun hnil => hnonempty (List.isEmpty_iff.2 hnil)
      · next name hname =>
        have hruns : ¬ Clause.FailsLate schema (.pattern target pattern) :=
          fun hlate => Option.some_ne_none name (hname.symm.trans hlate.1)
        refine iff_of_true (fun q hq => ?_) hruns
        obtain ⟨f, hf, h⟩ := Except.bind_eq_ok.1 h
        obtain ⟨terms, hterms, h⟩ := Except.bind_eq_ok.1 h
        -- tokens were found, so the field has tokens to look up
        have hsearchable : isSearchable schema name = true := by
          rw [isSearchable, field?_of_fieldNamed hf]
          exact isIndexed_of_analyze hterms
        split at h
        · obtain ⟨q', hq', h⟩ := Except.bind_eq_ok.1 h
          cases h
          exact Option.some.inj hq ▸ isRunnable_ofRegex hq'
        · cases h
          exact Option.some.inj hq ▸ hsearchable
        · cases h
          exact Option.some.inj hq ▸ hsearchable

/-- What comes of a path can be run: an expression always, and a literal if the field can be looked up. -/
theorem isRunnable_ofPath {field pattern : String} {o : Option Query}
    (h : ofPath schema field pattern = .ok o) :
    (∀ q ∈ o, q.isRunnable schema = true) ↔ ¬ Clause.FailsLate schema (.path field pattern) := by
  unfold ofPath at h
  simp only at h
  split at h
  · next hempty =>
    cases h
    exact iff_of_true nofun fun hlate => hlate.1 (List.isEmpty_iff.1 hempty)
  · next hnonempty =>
    obtain ⟨_, -, h⟩ := Except.bind_eq_ok.1 h
    split at h
    · next hglob =>
      obtain ⟨q', hq', h⟩ := Except.bind_eq_ok.1 h
      cases h
      refine iff_of_true ?_ fun hlate => Bool.false_ne_true (hlate.2.1.symm.trans hglob)
      exact fun q hq => Option.some.inj hq ▸ isRunnable_ofRegex hq'
    -- a path without wildcards is a literal, and its field is not looked at
    · next hplain =>
      cases h
      rw [isRunnable_term, not_iff_not]
      refine ⟨fun hfield => ⟨?_, by simpa using hplain, hfield⟩, fun hlate => hlate.2.2⟩
      exact fun hnil => hnonempty (List.isEmpty_iff.2 hnil)

/-- **A clause that is translated has a query that can be run, unless the clause fails late.** One case for
each kind of clause. -/
theorem isRunnable_ofClause {c : Clause} {o : Option Query} (h : ofClause schema c = .ok o) :
    (∀ q ∈ o, q.isRunnable schema = true) ↔ ¬ c.FailsLate schema := by
  cases c with
  | exact field value =>
    obtain ⟨q', hq', h⟩ := Except.bind_eq_ok.1 h
    cases h
    exact iff_of_true (fun q hq => Option.some.inj hq ▸ isRunnable_exactTerm hq') id
  | exactSet field values op =>
    obtain ⟨terms, hterms, h⟩ := Except.bind_eq_ok.1 h
    have hall : ∀ t ∈ terms, t.isRunnable schema = true :=
      Except.forall_of_mapM (f := exactTerm schema field) (fun _ _ t ht => isRunnable_exactTerm ht)
        hterms
    -- every literal can be run, so all of them together can
    cases h
    exact iff_of_true ((isRunnable_combine _ terms).2 hall) id
  | pattern target pattern => exact isRunnable_ofPattern h
  | path field pattern => exact isRunnable_ofPath h
  | range field least greatest =>
    obtain ⟨_, -, h⟩ := Except.bind_eq_ok.1 h
    split at h
    · next hopen =>
      cases h
      simp only [Bool.and_eq_true, Option.isNone_iff_eq_none] at hopen
      exact iff_of_true nofun fun hlate => hlate.1 hopen
    · next hbounded =>
      cases h
      simp only [Bool.and_eq_true, Option.isNone_iff_eq_none] at hbounded
      -- a range can be run on a field of numbers
      have hnumbers : (Query.range field least greatest).isRunnable schema = true ↔
          ∃ f, schema.field? field = some f ∧ f.type = .integer := by
        rw [isRunnable]
        cases schema.field? field with
        | none => simp
        | some f => simp
      simp only [Option.mem_some_iff, forall_eq', hnumbers, Clause.FailsLate, hbounded, not_false_eq_true,
        true_and, not_not]
  | codes field codes =>
    obtain ⟨_, -, h⟩ := Except.bind_eq_ok.1 h
    cases h
    rw [isRunnable_combine, List.forall_mem_map]
    simp only [isRunnable, Clause.FailsLate, not_and, Bool.not_eq_false]
    constructor
    · intro hruns hne
      obtain ⟨n, hn⟩ := List.exists_mem_of_ne_nil _ hne
      exact hruns n hn
    · exact fun hfield n hn => hfield (List.ne_nil_of_mem hn)

/-- Clauses and their queries: those that are left can be run if no clause fails late. -/
theorem forall_isRunnable_iff {cs : List Clause} {os : List (Option Query)}
    (h : cs.mapM (ofClause schema) = .ok os) :
    (∀ q ∈ os.filterMap id, q.isRunnable schema = true) ↔ ∀ c ∈ cs, ¬ c.FailsLate schema := by
  induction cs generalizing os with
  | nil =>
    cases h
    simp
  | cons c cs ih =>
    rw [List.mapM_cons] at h
    obtain ⟨o, ho, h⟩ := Except.bind_eq_ok.1 h
    obtain ⟨os, hos, h⟩ := Except.bind_eq_ok.1 h
    cases h
    rw [List.forall_mem_cons, ← isRunnable_ofClause ho, ← ih hos]
    cases o <;> simp

/-- **The query of clauses can be run** if none of them fails late. -/
theorem isRunnable_ofClauses_iff {cs : List Clause} {q : Query} (h : ofClauses schema cs = .ok q) :
    q.isRunnable schema = true ↔ ∀ c ∈ cs, ¬ c.FailsLate schema := by
  obtain ⟨os, hos, h⟩ := Except.bind_eq_ok.1 h
  obtain rfl := Except.ok.inj h
  rw [← forall_isRunnable_iff hos, ← isRunnable_combine .must]
  -- without any query left, everything is selected
  cases combine .must (os.filterMap id) with
  | none => simp [isRunnable]
  | some q => simp

/-- Clauses that fit the schema make a query that can be run. -/
theorem isRunnable_ofClauses {cs : List Clause} {q : Query} (hfits : ∀ c ∈ cs, c.Fits schema)
    (h : ofClauses schema cs = .ok q) : q.isRunnable schema = true :=
  (isRunnable_ofClauses_iff h).2 fun c hc => (hfits c hc).not_failsLate

end Query

/-- **The clauses of a filter fit the event index.** -/
theorem Filter.clauses_fit (f : Filter) : ∀ c ∈ f.clauses, c.Fits .events := by
  intro c hc
  -- the parts of a filter are of two kinds: what may be given once, and what may be given many times
  have hoption : ∀ {α : Type} {o : Option α} {clause : α → Clause},
      c ∈ (o.map clause).toList → (∀ a, (clause a).Fits .events) → c.Fits .events := by
    intro α o clause hc h
    obtain ⟨a, -, rfl⟩ := Option.map_eq_some_iff.1 (Option.mem_toList.1 hc)
    exact h a
  have hset : ∀ {p : Bool} {clause : Clause},
      (c ∈ if p then [] else [clause]) → clause.Fits .events → c.Fits .events := by
    intro p clause hc h
    cases p with
    | true => exact absurd hc List.not_mem_nil
    | false => exact List.mem_singleton.1 hc ▸ h
  simp only [clauses, anyOf, List.mem_append] at hc
  -- one case for each part of the filter, in the order in which its clauses are listed
  rcases hc with ((((((((((((((hc | hc) | hc) | hc) | hc) | hc) | hc) | hc) | hc) | hc) | hc) |
    hc) | hc) | hc) | hc) | hc
  · exact hset hc trivial
  · exact hoption hc fun _ => trivial
  · exact hoption hc fun _ => nofun
  · exact hoption hc fun _ => nofun
  · exact hoption hc fun _ => nofun
  · exact hoption hc fun _ => ⟨_, rfl, rfl⟩
  · exact hoption hc fun _ => ⟨_, rfl, rfl⟩
  · exact hoption hc fun _ => ⟨_, rfl, rfl⟩
  · exact hoption hc fun _ => ⟨_, rfl, rfl⟩
  · exact hset hc rfl
  · exact hset hc rfl
  · exact hoption hc fun _ => rfl
  · exact hset hc trivial
  · exact hoption hc fun _ => trivial
  · exact hset hc trivial
  · exact hset hc trivial

/-- **Every query that is built of a filter can be run.** -/
theorem Query.isRunnable_ofFilter {f : Option Filter} {q : Query}
    (h : ofFilter .events f = .ok q) : q.isRunnable .events = true := by
  cases f with
  | none =>
    cases h
    rfl
  | some f => exact isRunnable_ofClauses f.clauses_fit h

end EventCatalog
