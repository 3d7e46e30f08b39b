import Mathlib.Data.List.Forall2
import EventCatalog.Proofs.FilterQueries

/-!
# What combined queries select

A filter is translated clause by clause, and the queries of the clauses are put together: none selects
every document, one stands for itself, several become parts of one query (`Query.combine`). How many there
are makes no difference to what is selected. Parts that have to be met select what all of them select
(`Query.selects_combine_must`), and of parts that need not, one has to be met if there are any
(`Query.selects_combine_should`).

So the query of clauses selects what each clause selects by itself (`Query.selects_ofClauses`), where a
clause that constrains nothing selects every document (`Clause.Selects`). It is built if each clause can be
translated (`Query.exists_ofClauses`).
-/

namespace EventCatalog

/-- What succeeds for every element of a list succeeds for the list, element by element. -/
theorem Except.mapM_eq_ok {ε α β : Type} {f : α → Except ε β} {l : List α} {bs : List β} :
    l.mapM f = .ok bs ↔ List.Forall₂ (fun a b => f a = .ok b) l bs := by
  induction l generalizing bs with
  | nil =>
    rw [List.mapM_nil, List.forall₂_nil_left_iff]
    exact ⟨fun h => (Except.ok.inj h).symm, fun h => h ▸ rfl⟩
  | cons a rest ih =>
    rw [List.mapM_cons, List.forall₂_cons_left_iff, Except.bind_eq_ok]
    constructor
    · rintro ⟨b, hb, h⟩
      obtain ⟨bs', hbs, h⟩ := Except.bind_eq_ok.1 h
      exact ⟨b, bs', hb, ih.1 hbs, (Except.ok.inj h).symm⟩
    · rintro ⟨b, bs', hb, hbs, rfl⟩
      exact ⟨b, hb, Except.bind_eq_ok.2 ⟨bs', ih.2 hbs, rfl⟩⟩

/-- What succeeds for every element of a list succeeds for the list, and only that does. -/
theorem Except.exists_mapM_eq_ok {ε α β : Type} {f : α → Except ε β} {l : List α} :
    (∃ bs, l.mapM f = .ok bs) ↔ ∀ a ∈ l, ∃ b, f a = .ok b := by
  induction l with
  | nil => exact ⟨fun _ _ ha => absurd ha List.not_mem_nil, fun _ => ⟨[], rfl⟩⟩
  | cons a rest ih =>
    rw [List.forall_mem_cons, ← ih, List.mapM_cons]
    constructor
    · rintro ⟨_, h⟩
      obtain ⟨b, hb, h⟩ := Except.bind_eq_ok.1 h
      obtain ⟨bs, hbs, -⟩ := Except.bind_eq_ok.1 h
      exact ⟨⟨b, hb⟩, bs, hbs⟩
    · rintro ⟨⟨b, hb⟩, bs, hbs⟩
      exact ⟨b :: bs, Except.bind_eq_ok.2 ⟨b, hb, Except.bind_eq_ok.2 ⟨bs, hbs, rfl⟩⟩⟩

/-- What fails for a list fails for an element and has succeeded for those before it. -/
theorem Except.mapM_eq_error {ε α β : Type} {f : α → Except ε β} {l : List α} {e : ε} :
    l.mapM f = .error e ↔
      ∃ before a after, l = before ++ a :: after ∧ (∀ b ∈ before, ∃ y, f b = .ok y) ∧
        f a = .error e := by
  induction l with
  | nil => exact ⟨fun h => (nomatch h), fun ⟨before, _, _, h, _⟩ => by cases before <;> cases h⟩
  | cons a rest ih =>
    rw [List.mapM_cons, Except.bind_eq_error]
    constructor
    · rintro (ha | ⟨y, ha, h⟩)
      · exact ⟨[], a, rest, rfl, fun _ hb => absurd hb List.not_mem_nil, ha⟩
      -- either the rest fails, or putting the results together, which cannot fail
      · rcases Except.bind_eq_error.1 h with h | ⟨_, -, h⟩
        · obtain ⟨before, a', after, rfl, hbefore, ha'⟩ := ih.1 h
          exact ⟨a :: before, a', after, rfl, List.forall_mem_cons.2 ⟨⟨y, ha⟩, hbefore⟩, ha'⟩
        · exact nomatch h
    · rintro ⟨before, a', after, hl, hbefore, ha'⟩
      cases before with
      | nil =>
        obtain ⟨rfl, rfl⟩ := List.cons.inj hl
        exact .inl ha'
      | cons b before =>
        obtain ⟨rfl, rfl⟩ := List.cons.inj hl
        obtain ⟨⟨y, ha⟩, hbefore⟩ := List.forall_mem_cons.1 hbefore
        exact .inr ⟨y, ha, Except.bind_eq_error.2 (.inl (ih.2 ⟨before, a', after, rfl, hbefore, ha'⟩))⟩

namespace Query

variable {schema : Schema} {d : Document}

/-! ### Parts of one kind -/

theorem allRequired_must (qs : List Query) :
    allRequired schema d (qs.map fun q => (.must, q)) = qs.all (selects schema d) := by
  induction qs with
  | nil => rfl
  | cons q qs ih => rw [List.map_cons, allRequired, ih, List.all_cons]

theorem allRequired_should (qs : List Query) :
    allRequired schema d (qs.map fun q => (.should, q)) = true := by
  induction qs with
  | nil => rfl
  | cons q qs ih => rw [List.map_cons, allRequired, ih]

theorem anyOptional_should (qs : List Query) :
    anyOptional schema d (qs.map fun q => (.should, q)) = qs.any (selects schema d) := by
  induction qs with
  | nil => rfl
  | cons q qs ih => rw [List.map_cons, anyOptional, ih, List.any_cons]

theorem hasRequired_should (qs : List Query) :
    hasRequired (qs.map fun q => (.should, q)) = false := by
  induction qs with
  | nil => rfl
  | cons q qs ih => rw [List.map_cons, hasRequired, ih]

/-- **Parts that have to be met** select what all of them select. -/
theorem selects_combine_must (qs : List Query) :
    (∀ q ∈ combine .must qs, q.selects schema d = true) ↔ ∀ q ∈ qs, q.selects schema d = true := by
  match qs with
  | [] => exact ⟨fun _ q hq => absurd hq List.not_mem_nil, fun _ q hq => nomatch hq⟩
  | [q'] => simp [combine]
  | q₁ :: q₂ :: rest =>
    -- with a part that has to be met, nothing else is asked for
    have hrequired : hasRequired ((q₁ :: q₂ :: rest).map fun q => (Occur.must, q)) = true := rfl
    simp only [combine, Option.mem_some_iff, forall_eq', selects, allRequired_must, hrequired,
      Bool.true_or, Bool.and_true, List.all_eq_true]

/-- **Parts that need not be met**, of which one has to be if there are any. -/
theorem selects_combine_should (qs : List Query) :
    (∀ q ∈ combine .should qs, q.selects schema d = true) ↔
      qs = [] ∨ ∃ q ∈ qs, q.selects schema d = true := by
  match qs with
  | [] => exact ⟨fun _ => .inl rfl, fun _ q hq => nomatch hq⟩
  | [q'] => simp [combine]
  | q₁ :: q₂ :: rest =>
    simp only [combine, Option.mem_some_iff, forall_eq', selects, allRequired_should,
      hasRequired_should, anyOptional_should, Bool.true_and, Bool.false_or, List.any_eq_true,
      reduceCtorEq, false_or]

end Query

/-! ### Clauses -/

/-- A clause selects a document: it can be translated, and its query, if it constrains anything, selects
the document. -/
def Clause.Selects (schema : Schema) (c : Clause) (d : Document) : Prop :=
  ∃ o, Query.ofClause schema c = .ok o ∧ ∀ q ∈ o, q.selects schema d = true

/-- What a clause that is translated selects. -/
theorem Clause.selects_iff {schema : Schema} {c : Clause} {o : Option Query} {d : Document}
    (h : Query.ofClause schema c = .ok o) :
    c.Selects schema d ↔ ∀ q ∈ o, q.selects schema d = true := by
  constructor
  · rintro ⟨o', ho', hselects⟩
    rwa [Except.ok.inj (h.symm.trans ho')]
  · exact fun hselects => ⟨o, h, hselects⟩

namespace Query

variable {schema : Schema} {cs : List Clause}

/-- Clauses that can be translated one by one make a query, and only those do. -/
theorem exists_ofClauses :
    (∃ q, ofClauses schema cs = .ok q) ↔ ∀ c ∈ cs, ∃ o, ofClause schema c = .ok o := by
  rw [← Except.exists_mapM_eq_ok]
  constructor
  · rintro ⟨q, h⟩
    obtain ⟨os, hos, -⟩ := Except.bind_eq_ok.1 h
    exact ⟨os, hos⟩
  · exact fun ⟨os, hos⟩ => ⟨_, Except.bind_eq_ok.2 ⟨os, hos, rfl⟩⟩

/-- Clauses are refused with the error of the first one that is refused. -/
theorem ofClauses_eq_error {e : CatalogError} :
    ofClauses schema cs = .error e ↔ ∃ before c after, cs = before ++ c :: after ∧
      (∀ b ∈ before, ∃ o, ofClause schema b = .ok o) ∧ ofClause schema c = .error e := by
  rw [← Except.mapM_eq_error]
  constructor
  · intro h
    -- once all clauses are translated, nothing fails any more
    rcases Except.bind_eq_error.1 h with h | ⟨_, -, h⟩
    · exact h
    · exact nomatch h
  · exact fun h => Except.bind_eq_error.2 (.inl h)

/-- Clauses and their queries side by side: those that are left constrain what the clauses do. -/
theorem forall_selects_iff {os : List (Option Query)} (d : Document)
    (h : List.Forall₂ (fun c o => ofClause schema c = .ok o) cs os) :
    (∀ c ∈ cs, c.Selects schema d) ↔ ∀ q ∈ os.filterMap id, q.selects schema d = true := by
  induction h with
  | nil => simp
  | @cons c o cs os hco _ ih =>
    rw [List.forall_mem_cons, Clause.selects_iff hco, ih]
    cases o <;> simp

/-- **The query of clauses selects what every clause selects.** -/
theorem selects_ofClauses {q : Query} (h : ofClauses schema cs = .ok q) (d : Document) :
    q.selects schema d = true ↔ ∀ c ∈ cs, c.Selects schema d := by
  obtain ⟨os, hos, h⟩ := Except.bind_eq_ok.1 h
  obtain rfl := Except.ok.inj h
  rw [forall_selects_iff d (Except.mapM_eq_ok.1 hos), ← selects_combine_must]
  -- without any query left, everything is selected
  cases combine .must (os.filterMap id) with
  | none => simp [selects]
  | some q => simp

end Query

end EventCatalog
