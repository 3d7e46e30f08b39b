import EventCatalog.Proofs.EventFields
import EventCatalog.Proofs.Milliseconds
import EventCatalog.Proofs.Numerals
import EventCatalog.Proofs.Selection
import EventCatalog.Proofs.Visibility

/-!
# Filters without patterns

A filter without text patterns asks for values: an identifier among those given, a count, times in
intervals, statuses and severities, tags and names. `Filter.AdmitsBy` says so of an event, part by part,
for any reading of the intervals. The index keeps whole milliseconds, so it reads them as
`TimeRange.Spans`, and `Filter.Admits` is what a list of a filter shows (`Catalog.list_structured`), if
the names that go with the events are short enough to be indexed.

Rounding down keeps the order of times, so no event whose times lie in the intervals exactly is missed
(`TimeRange.Contains.spans`). That does not hold of leap seconds: in whole milliseconds a leap second
counts as the second behind it, and the times within it lie behind the start of that second
(`Catalog.list_missing`).

Each clause of a filter is shown to express its part (`Clause.Express`), and the parts are put together
in the order in which the clauses are listed.
-/

namespace EventCatalog

/-! ### What a filter asks for -/

namespace TimeRange

/-- A time lies in the interval. -/
def Contains (r : TimeRange) (t : Instant) : Prop :=
  (∀ first ∈ r.first, first ≤ t) ∧ ∀ last ∈ r.last, t ≤ last

/-- A time lies in the interval, all in whole milliseconds. -/
def Spans (r : TimeRange) (t : Instant) : Prop :=
  (∀ first ∈ r.first, first.millis ≤ t.millis) ∧ ∀ last ∈ r.last, t.millis ≤ last.millis

/-- No time within a leap second is compared with a later one. -/
def IsPlainAt (r : TimeRange) (t : Instant) : Prop :=
  (∀ first ∈ r.first, ¬ first.IsLeap) ∧ ∀ last ∈ r.last, ¬ t.IsLeap

instance (r : TimeRange) (t : Instant) : Decidable (r.Spans t) :=
  inferInstanceAs (Decidable ((∀ first ∈ r.first, first.millis ≤ t.millis) ∧
    ∀ last ∈ r.last, t.millis ≤ last.millis))

end TimeRange

/-- What is asked for is met by what is held: all of it, or any of it if anything is asked for. -/
def Combine.Meets : Combine → List String → List String → Prop
  | all, asked, held => ∀ s ∈ asked, s ∈ held
  | any, asked, held => asked = [] ∨ ∃ s ∈ asked, s ∈ held

instance (op : Combine) (asked held : List String) : Decidable (op.Meets asked held) :=
  match op with
  | .all => inferInstanceAs (Decidable (∀ s ∈ asked, s ∈ held))
  | .any => inferInstanceAs (Decidable (asked = [] ∨ ∃ s ∈ asked, s ∈ held))

namespace Filter

/-- All parts of a filter that ask for values hold of an event. What is not given asks for nothing. -/
structure AdmitsBy (within : TimeRange → Instant → Prop) (f : Filter) (e : Event) : Prop where
  uuid : f.uuids = [] ∨ e.uuid ∈ f.uuids
  count : ∀ n ∈ f.count, e.count = n
  firstSeen : ∀ r ∈ f.firstSeen, within r e.firstSeen
  lastSeen : ∀ r ∈ f.lastSeen, within r e.lastSeen
  statusChange : ∀ r ∈ f.statusChange, within r e.statusChange
  updateTime : ∀ r ∈ f.updateTime, within r e.updateTime
  status : f.statuses = [] ∨ e.status ∈ f.statuses
  severity : f.severities = [] ∨ e.severity ∈ f.severities
  tags : f.tagsCombine.Meets f.tags e.tags
  acknowledgedByName : ∀ name ∈ f.acknowledgedByName, e.acknowledgedByName = some name
  agent : f.agents = [] ∨ ∃ agent ∈ f.agents, e.agent = some agent
  monitor : f.monitors = [] ∨ ∃ monitor ∈ f.monitors, e.monitor = some monitor

/-- A filter admits an event, as far as whole milliseconds tell. -/
abbrev Admits (f : Filter) (e : Event) : Prop := f.AdmitsBy TimeRange.Spans e

/-- What is given can only be one thing. -/
theorem forall_mem_eq_iff {α : Type} {o : Option α} {a : α} :
    (∀ n ∈ o, a = n) ↔ o = none ∨ o = some a := by
  -- what is not given is compared with nothing
  cases o with
  | none => simp
  | some n => simp [eq_comm]

instance (within : TimeRange → Instant → Prop) [∀ r t, Decidable (within r t)] (f : Filter)
    (e : Event) : Decidable (f.AdmitsBy within e) :=
  -- counts are compared, for deciding it of all numbers of 32 bits would try them one by one
  decidable_of_iff ((f.uuids = [] ∨ e.uuid ∈ f.uuids) ∧ (f.count = none ∨ f.count = some e.count) ∧
      (∀ r ∈ f.firstSeen, within r e.firstSeen) ∧ (∀ r ∈ f.lastSeen, within r e.lastSeen) ∧
      (∀ r ∈ f.statusChange, within r e.statusChange) ∧ (∀ r ∈ f.updateTime, within r e.updateTime) ∧
      (f.statuses = [] ∨ e.status ∈ f.statuses) ∧ (f.severities = [] ∨ e.severity ∈ f.severities) ∧
      f.tagsCombine.Meets f.tags e.tags ∧
      (∀ name ∈ f.acknowledgedByName, e.acknowledgedByName = some name) ∧
      (f.agents = [] ∨ ∃ agent ∈ f.agents, e.agent = some agent) ∧
      (f.monitors = [] ∨ ∃ monitor ∈ f.monitors, e.monitor = some monitor))
    ⟨fun ⟨h₁, h₂, h₃, h₄, h₅, h₆, h₇, h₈, h₉, h₁₀, h₁₁, h₁₂⟩ =>
        ⟨h₁, forall_mem_eq_iff.2 h₂, h₃, h₄, h₅, h₆, h₇, h₈, h₉, h₁₀, h₁₁, h₁₂⟩,
      fun h => ⟨h.uuid, forall_mem_eq_iff.1 h.count, h.firstSeen, h.lastSeen, h.statusChange, h.updateTime, h.status,
        h.severity, h.tags, h.acknowledgedByName, h.agent, h.monitor⟩⟩

/-- A filter without text patterns. -/
structure IsStructured (f : Filter) : Prop where
  element : f.element = none
  subElement : f.subElement = none
  summary : f.summary = none
  eventClass : f.eventClass = none

/-- Where one reading of intervals implies another, so does what a filter admits. -/
theorem AdmitsBy.mono {within within' : TimeRange → Instant → Prop} {f : Filter} {e : Event}
    (h : f.AdmitsBy within e) (hwithin : ∀ r t, within r t → within' r t) : f.AdmitsBy within' e :=
  { h with
    firstSeen := fun r hr => hwithin r _ (h.firstSeen r hr)
    lastSeen := fun r hr => hwithin r _ (h.lastSeen r hr)
    statusChange := fun r hr => hwithin r _ (h.statusChange r hr)
    updateTime := fun r hr => hwithin r _ (h.updateTime r hr) }

/-- A filter of which nothing is given admits every event. -/
theorem admits_empty (e : Event) : Admits {} e := by
  constructor <;> simp [Combine.Meets]

end Filter

/-! ### Rounding times -/

/-- What lies in an interval exactly lies in it in whole milliseconds. -/
theorem TimeRange.Contains.spans {r : TimeRange} {t : Instant} (h : r.Contains t)
    (hplain : r.IsPlainAt t) : r.Spans t :=
  ⟨fun first hfirst => Instant.millis_le_millis (h.1 first hfirst) (hplain.1 first hfirst),
    fun last hlast => Instant.millis_le_millis (h.2 last hlast) (hplain.2 last hlast)⟩

/-! ### What clauses express -/

/-- The clauses can be translated, and of the events with short names they select those with a
property. -/
structure Clause.Express (cs : List Clause) (P : Event → Prop) : Prop where
  translated : ∀ c ∈ cs, ∃ o, Query.ofClause .events c = .ok o
  selects : ∀ e, e.HasShortNames → ((∀ c ∈ cs, c.Selects .events (.ofEvent e)) ↔ P e)

namespace Clause.Express

variable {cs cs' : List Clause} {P P' : Event → Prop}

theorem congr (h : Express cs P) (hP : ∀ e, P e ↔ P' e) : Express cs P' where
  translated := h.translated
  selects := fun e he => (h.selects e he).trans (hP e)

/-- Clauses side by side express what they express together. -/
theorem append (h : Express cs P) (h' : Express cs' P') : Express (cs ++ cs') fun e => P e ∧ P' e where
  translated := by
    intro c hc
    rcases List.mem_append.1 hc with hc | hc
    · exact h.translated c hc
    · exact h'.translated c hc
  selects := by
    intro e he
    rw [List.forall_mem_append, h.selects e he, h'.selects e he]

/-- A clause expresses what its query selects. -/
theorem single {c : Clause} {o : Option Query} (hc : Query.ofClause .events c = .ok o)
    (h : ∀ e, e.HasShortNames → ((∀ q ∈ o, q.selects .events (.ofEvent e) = true) ↔ P e)) :
    Express [c] P where
  translated := by
    intro c' hc'
    rw [List.mem_singleton.1 hc']
    exact ⟨o, hc⟩
  selects := by
    intro e he
    rw [List.forall_mem_singleton, Clause.selects_iff hc, h e he]

/-- What is not given asks for nothing. -/
theorem option {α : Type} {clause : α → Clause} {P : α → Event → Prop}
    (h : ∀ a, Express [clause a] (P a)) (o : Option α) :
    Express (o.map clause).toList fun e => ∀ a ∈ o, P a e := by
  cases o with
  | none => exact ⟨fun c hc => absurd hc List.not_mem_nil, fun e _ => by simp⟩
  | some a => exact (h a).congr fun e => by simp

/-- An empty list asks for nothing. -/
theorem unlessEmpty {α : Type} {l : List α} {c : Clause} (h : Express [c] P)
    (hnil : l = [] → ∀ e, P e) : Express (if l.isEmpty then [] else [c]) P := by
  split
  · next hempty =>
    exact ⟨fun c hc => absurd hc List.not_mem_nil,
      fun e _ => by simp [hnil (List.isEmpty_iff.1 hempty) e]⟩
  · exact h

/-! ### One lemma for each kind of clause -/

variable {field : String}

theorem range {time : Event → Instant} (hfield : ∀ e, (field, (time e).millis) ∈ e.numbers)
    (hnamed : ∃ f, Query.fieldNamed .events field = .ok f) (r : TimeRange) :
    Express [r.clause field] fun e => r.Spans (time e) := by
  obtain ⟨f, hf⟩ := hnamed
  cases r with
  | mk first last =>
    refine single (o := if (first.map (·.millis)).isNone && (last.map (·.millis)).isNone
      then none else some (.range field (first.map (·.millis)) (last.map (·.millis)))) ?_ ?_
    -- without bounds there is no query at all
    · rw [TimeRange.clause, Query.ofClause, hf]
      change (if _ then _ else _) = _
      split <;> rfl
    · intro e _
      have hselects := Query.selects_range (hfield e) (first.map (·.millis))
        (last.map (·.millis))
      -- an open end asks for nothing, so it is decided by which bounds there are
      cases first <;> cases last <;> simp_all [TimeRange.Spans]

theorem codes {code : Event → Int} (hfield : ∀ e, (field, code e) ∈ e.numbers)
    (hnamed : ∃ f, Query.fieldNamed .events field = .ok f) (ns : List Int) :
    Express [.codes field ns] fun e => ns = [] ∨ code e ∈ ns := by
  obtain ⟨f, hf⟩ := hnamed
  refine single (o := Query.combine .should (ns.map fun n => .term field (.int n))) ?_ ?_
  · rw [Query.ofClause, hf]
    rfl
  · intro e _
    rw [Query.selects_combine_should, List.map_eq_nil_iff]
    simp only [List.mem_map, exists_exists_and_eq_and, Query.selects_number (hfield e), exists_eq_right']

theorem count (n : UInt32) :
    Express [.exact Field.count (toString n.toNat)] fun e => e.count = n := by
  refine single (o := some (.term Field.count (.int n.toNat))) ?_ ?_
  -- a count of 32 bits is written as a literal, and read as a number of 64 bits
  · have hfits : n.toNat < 2 ^ 63 := Nat.lt_trans n.toNat_lt (by decide)
    have hnumber : (Int64.ofInt n.toNat).toInt = n.toNat :=
      Int64.toInt_ofInt_of_le (by omega) (by omega)
    obtain ⟨f, hf, hindexed, htype⟩ : ∃ f, Query.fieldNamed .events Field.count = .ok f ∧
        f.isIndexed = true ∧ f.type = .integer := ⟨_, rfl, rfl, rfl⟩
    have hterm : Query.exactTerm .events Field.count (toString n.toNat) =
        .ok (.term Field.count (.int n.toNat)) := by
      unfold Query.exactTerm
      rw [hf, ← hnumber]
      simp only [bind, Except.bind, hindexed, htype, Text.int64Of?_toString hfits]
      rfl
    rw [Query.ofClause, hterm]
    rfl
  · intro e _
    have hselects : (Query.term Field.count (.int n.toNat)).selects .events (.ofEvent e) = true ↔
        (e.count.toNat : Int) = n.toNat :=
      Query.selects_number (by simp [Event.numbers]) n.toNat
    simp only [Option.mem_some_iff, forall_eq', hselects]
    rw [Int.natCast_inj, UInt32.toNat_inj]

theorem name {names : Event → List String} (hfield : ∀ e, (field, names e) ∈ e.names)
    (hterm : ∀ s, Query.exactTerm .events field s = .ok (.term field (.text s))) (s : String) :
    Express [.exact field s] fun e => s ∈ names e := by
  refine single (o := some (.term field (.text s))) ?_ ?_
  · rw [Query.ofClause, hterm]
    rfl
  · intro e he
    simp only [Option.mem_some_iff, forall_eq', Query.selects_name (hfield e) he]

theorem names {names : Event → List String} (hfield : ∀ e, (field, names e) ∈ e.names)
    (hterm : ∀ s, Query.exactTerm .events field s = .ok (.term field (.text s))) (asked : List String)
    (op : Combine) : Express [.exactSet field asked op] fun e => op.Meets asked (names e) := by
  have hterms : asked.mapM (Query.exactTerm .events field) =
      .ok (asked.map fun s => .term field (.text s)) := by
    rw [funext hterm]
    exact List.mapM_pure
  -- asking for all is a query with all of them required, asking for any one with all of them optional
  cases op with
  | all =>
    refine single (o := Query.combine .must (asked.map fun s => .term field (.text s))) ?_ ?_
    · rw [Query.ofClause, hterms]
      rfl
    · intro e he
      simp only [Query.selects_combine_must, List.forall_mem_map, Query.selects_name (hfield e) he]
      rfl
  | any =>
    refine single (o := Query.combine .should (asked.map fun s => .term field (.text s))) ?_ ?_
    · rw [Query.ofClause, hterms]
      rfl
    · intro e he
      simp only [Query.selects_combine_should, List.map_eq_nil_iff, List.mem_map,
        exists_exists_and_eq_and, Query.selects_name (hfield e) he]
      rfl

theorem uuids (us : List Uuid) :
    Express [.exactSet Field.uuid (us.map Uuid.render) .any] fun e => us = [] ∨ e.uuid ∈ us := by
  have hterms : (us.map Uuid.render).mapM (Query.exactTerm .events Field.uuid) =
      .ok (us.map Catalog.keyQuery) := by
    rw [List.mapM_map]
    exact List.mapM_pure
  refine single (o := Query.combine .should (us.map Catalog.keyQuery)) ?_ ?_
  · rw [Query.ofClause, hterms]
    rfl
  · intro e _
    simp only [Query.selects_combine_should, List.map_eq_nil_iff, List.mem_map,
      exists_exists_and_eq_and, Catalog.selects_keyQuery, beq_iff_eq, exists_eq_right']

/-- Values with distinct codes. -/
theorem values {α : Type} {code : α → Nat} (field : String) (value : Event → α)
    (hinj : Function.Injective code) (hfield : ∀ e, (field, (code (value e) : Int)) ∈ e.numbers)
    (hnamed : ∃ f, Query.fieldNamed .events field = .ok f) (asked : List α) :
    Express (if asked.isEmpty then [] else [.codes field (asked.map fun a => (code a : Int))])
      fun e => asked = [] ∨ value e ∈ asked := by
  refine ((codes hfield hnamed (asked.map fun a => (code a : Int))).congr fun e => ?_).unlessEmpty
    fun hnil _ => .inl hnil
  -- different values have different codes, so asking for codes is asking for values
  have hcode : Function.Injective fun a => (code a : Int) := fun a b h => hinj (Int.ofNat.inj h)
  rw [List.map_eq_nil_iff, List.mem_map_of_injective hcode]

/-! ### The parts of a filter -/

theorem times (field : String) (time : Event → Instant)
    (hfield : ∀ e, (field, (time e).millis) ∈ e.numbers)
    (hnamed : ∃ f, Query.fieldNamed .events field = .ok f) (o : Option TimeRange) :
    Express (o.map (TimeRange.clause field)).toList fun e => ∀ r ∈ o, r.Spans (time e) :=
  .option (.range hfield hnamed) o

theorem anyUuid (us : List Uuid) :
    Express (Filter.anyOf Field.uuid (us.map Uuid.render)) fun e => us = [] ∨ e.uuid ∈ us :=
  -- a set of no identifiers asks for nothing, as an empty list does
  (uuids us).unlessEmpty fun h _ => .inl (List.map_eq_nil_iff.1 h)

theorem tags (asked : List String) (op : Combine) :
    Express (if asked.isEmpty then [] else [.exactSet Field.tag asked op])
      fun e => op.Meets asked e.tags := by
  refine (names (fun e => by simp [Event.names]) (fun _ => rfl) asked op).unlessEmpty fun h e => ?_
  -- of no tags an event carries all, and any are not asked for
  rw [h]
  cases op <;> simp [Combine.Meets]

/-- A name of which an event has one at most. -/
theorem optionalName (field : String) (held : Event → Option String)
    (hfield : ∀ e, (field, (held e).toList) ∈ e.names)
    (hterm : ∀ s, Query.exactTerm .events field s = .ok (.term field (.text s))) (o : Option String) :
    Express (o.map (Clause.exact field)).toList fun e => ∀ s ∈ o, held e = some s :=
  .option (fun s => (name hfield hterm s).congr fun e => by simp) o

theorem anyName (field : String) (held : Event → Option String)
    (hfield : ∀ e, (field, (held e).toList) ∈ e.names)
    (hterm : ∀ s, Query.exactTerm .events field s = .ok (.term field (.text s)))
    (asked : List String) :
    Express (Filter.anyOf field asked) fun e => asked = [] ∨ ∃ s ∈ asked, held e = some s :=
  ((names hfield hterm asked .any).congr fun e => by simp [Combine.Meets]).unlessEmpty
    fun h _ => .inl h

end Clause.Express

theorem Status.code_injective : Function.Injective Status.code := by
  intro a b h
  have hcode := Status.ofCode?_code a
  rw [h, Status.ofCode?_code] at hcode
  exact (Option.some.inj hcode).symm

theorem Severity.code_injective : Function.Injective Severity.code := by
  intro a b h
  have hcode := Severity.ofCode?_code a
  rw [h, Severity.ofCode?_code] at hcode
  exact (Option.some.inj hcode).symm

/-- **The clauses of a filter without patterns express what it admits.** -/
theorem Filter.express_clauses {f : Filter} (hf : f.IsStructured) :
    Clause.Express f.clauses f.Admits := by
  have huuid := Clause.Express.anyUuid f.uuids
  have hcount := Clause.Express.option Clause.Express.count f.count
  have hfirst := Clause.Express.times Field.firstSeen Event.firstSeen
    (fun e => by simp [Event.numbers]) ⟨_, rfl⟩ f.firstSeen
  have hlast := Clause.Express.times Field.lastSeen Event.lastSeen
    (fun e => by simp [Event.numbers]) ⟨_, rfl⟩ f.lastSeen
  have hchange := Clause.Express.times Field.statusChange Event.statusChange
    (fun e => by simp [Event.numbers]) ⟨_, rfl⟩ f.statusChange
  have hupdate := Clause.Express.times Field.updateTime Event.updateTime
    (fun e => by simp [Event.numbers]) ⟨_, rfl⟩ f.updateTime
  have hstatus := Clause.Express.values Field.status Event.status Status.code_injective
    (fun e => by simp [Event.numbers]) ⟨_, rfl⟩ f.statuses
  have hseverity := Clause.Express.values Field.severity Event.severity Severity.code_injective
    (fun e => by simp [Event.numbers]) ⟨_, rfl⟩ f.severities
  have htags := Clause.Express.tags f.tags f.tagsCombine
  have hname := Clause.Express.optionalName Field.acknowledgedByName
    Event.acknowledgedByName (fun e => by simp [Event.names]) (fun _ => rfl) f.acknowledgedByName
  have hagent := Clause.Express.anyName Field.agent Event.agent
    (fun e => by simp [Event.names]) (fun _ => rfl) f.agents
  have hmonitor := Clause.Express.anyName Field.monitor Event.monitor
    (fun e => by simp [Event.names]) (fun _ => rfl) f.monitors
  rw [clauses, hf.element, hf.subElement, hf.summary, hf.eventClass]
  simp only [Option.map_none, Option.toList_none, List.append_nil]
  -- the parts one after the other, in the order in which their clauses are listed
  refine (((((((((((huuid.append hcount).append hfirst).append hlast).append hchange).append
    hupdate).append hstatus).append hseverity).append htags).append hname).append hagent).append
    hmonitor).congr fun e => ?_
  constructor
  · rintro ⟨⟨⟨⟨⟨⟨⟨⟨⟨⟨⟨h₁, h₂⟩, h₃⟩, h₄⟩, h₅⟩, h₆⟩, h₇⟩, h₈⟩, h₉⟩, h₁₀⟩, h₁₁⟩, h₁₂⟩
    exact ⟨h₁, h₂, h₃, h₄, h₅, h₆, h₇, h₈, h₉, h₁₀, h₁₁, h₁₂⟩
  · exact fun h => ⟨⟨⟨⟨⟨⟨⟨⟨⟨⟨⟨h.uuid, h.count⟩, h.firstSeen⟩, h.lastSeen⟩, h.statusChange⟩,
      h.updateTime⟩, h.status⟩, h.severity⟩, h.tags⟩, h.acknowledgedByName⟩, h.agent⟩, h.monitor⟩

namespace Catalog

/-- **Filters without patterns mean what they say.** In an index of events whose names are short enough to
be indexed, a list shows exactly the events that its filter admits, in whole milliseconds, whatever the
sort and the page. None is missed whose times lie in the intervals exactly, unless a time within a leap
second is compared with a later one. A filter of which nothing is given shows all events. -/
theorem list_structured {c : Catalog} (hc : c.HoldsEvents)
    (hnames : ∀ e ∈ c.visible, e.HasShortNames) {f : Filter} (hf : f.IsStructured)
    (sort : List SortBy) :
    ∃ found : List Event,
      found.Perm (c.visible.filter fun e => f.Admits e) ∧
      (∀ limit offset, c.list ⟨some f, sort, limit, offset⟩ = .ok
        (Request.pageOf ⟨some f, sort, limit, offset⟩ c.config.maxResults found)) ∧
      (∀ e ∈ c.visible, f.AdmitsBy (fun r t => r.Contains t ∧ r.IsPlainAt t) e → e ∈ found) ∧
      (f = {} → found.Perm c.visible) := by
  have hclauses := Filter.express_clauses hf
  obtain ⟨q, hq⟩ := Query.exists_ofClauses.2 hclauses.translated
  -- among the visible events, whose names are short, the query selects what the filter admits
  have hselected : (c.visible.filter fun e => q.selects .events (.ofEvent e)) =
      c.visible.filter fun e => f.Admits e := by
    refine List.filter_congr fun e he => ?_
    rw [Bool.eq_iff_iff, decide_eq_true_eq, Query.selects_ofClauses hq]
    exact hclauses.selects e (hnames e he)
  obtain ⟨found, hperm, hlist⟩ := list_visible hc ⟨some f, sort, none, none⟩ hq
  rw [hselected] at hperm
  refine ⟨found, hperm, hlist, ?_, ?_⟩
  · intro e he hexact
    -- rounding down keeps the order of times that are not within leap seconds
    have hadmitted : f.Admits e := hexact.mono fun r t h => h.1.spans h.2
    exact hperm.mem_iff.2 (List.mem_filter.2 ⟨he, decide_eq_true hadmitted⟩)
  · rintro rfl
    rwa [List.filter_eq_self.2 fun e _ => decide_eq_true (Filter.admits_empty e)] at hperm

/-- An event with tags. -/
def hostTagged (n : Nat) (tags : List String) : Event :=
  { Event.raise (.ofNat n) .epoch "host" "/Status" "down" .warning with tags := tags }

/-- Of two events with tags, one has both tags that are asked for. -/
theorem list_structured_tags :
    ∃ c, openDirectory "events" .default
        (.index (indexOf [hostTagged 1 ["core"], hostTagged 2 ["core", "web"]])) false = .ok c ∧
      c.list { filter := some { tags := ["web", "core"], tagsCombine := .all } } = .ok {
        events := [hostTagged 2 ["core", "web"]]
        total := 1, limit := 100, nextOffset := none } := by
  obtain ⟨c, hopen⟩ : ∃ c, openDirectory "events" .default
      (.index (indexOf [hostTagged 1 ["core"], hostTagged 2 ["core", "web"]])) false = .ok c :=
    ⟨_, rfl⟩
  have hevents := (ofEvents_indexOf hopen).holdsEvents
  have hvisible : c.visible = [hostTagged 1 ["core"], hostTagged 2 ["core", "web"]] := by
    refine visible_eq_of_documents ?_
    cases hopen
    rfl
  obtain ⟨found, hperm, hlist, -⟩ := list_structured hevents (by rw [hvisible]; decide)
    (f := { tags := ["web", "core"], tagsCombine := .all }) ⟨rfl, rfl, rfl, rfl⟩ []
  -- of the two events only the second has both tags
  have hadmitted : (c.visible.filter fun e =>
      ({ tags := ["web", "core"], tagsCombine := .all } : Filter).Admits e) =
        [hostTagged 2 ["core", "web"]] := by
    rw [hvisible]
    decide
  rw [hadmitted, List.perm_singleton] at hperm
  refine ⟨c, hopen, ?_⟩
  rw [hlist none none, hperm]
  cases hopen
  rfl

/-- Half a second into the leap second at the end of 2016. -/
def leapStart : Instant := ⟨⟨1483228799, 1500000000, by decide, by decide, by decide⟩, by decide⟩

/-- A fifth of a second into 2017. -/
def newYear : Instant := ⟨⟨1483228800, 200000000, by decide, by decide, by decide⟩, by decide⟩

/-- **An event in an interval may be missed.** It was last seen behind a leap second, from within which on
events are asked for. -/
theorem list_missing :
    ∃ c e, openDirectory "events" .default
        (.index (indexOf [.raise (.ofNat 1) newYear "host" "/Status" "down" .warning])) false = .ok c ∧
      c.visible = [e] ∧ e.HasShortNames ∧
      Filter.AdmitsBy TimeRange.Contains { lastSeen := some ⟨some leapStart, none⟩ } e ∧
      c.list { filter := some { lastSeen := some ⟨some leapStart, none⟩ } } =
        .ok { events := [], total := 0, limit := 100, nextOffset := none } := by
  obtain ⟨c, hopen⟩ : ∃ c, openDirectory "events" .default
      (.index (indexOf [.raise (.ofNat 1) newYear "host" "/Status" "down" .warning])) false = .ok c :=
    ⟨_, rfl⟩
  have hvisible : c.visible = [.raise (.ofNat 1) newYear "host" "/Status" "down" .warning] := by
    refine visible_eq_of_documents ?_
    cases hopen
    rfl
  obtain ⟨found, hperm, hlist⟩ := list_visible (ofEvents_indexOf hopen).holdsEvents
    { filter := some { lastSeen := some ⟨some leapStart, none⟩ } }
    (q := .range Field.lastSeen (some leapStart.millis) none) rfl
  -- in milliseconds the bound lies behind the time
  have hnone : (c.visible.filter fun e =>
      (Query.range Field.lastSeen (some leapStart.millis) none).selects .events (.ofEvent e)) = [] := by
    rw [hvisible, List.filter_eq_nil_iff]
    intro e he
    rw [List.mem_singleton.1 he, Query.selects_range (n := newYear.millis)
      (by simp [Event.numbers, Event.raise])]
    decide
  rw [hnone, List.perm_nil] at hperm
  refine ⟨c, _, hopen, hvisible, by decide, ?_, ?_⟩
  · constructor <;> simp [Event.raise, Combine.Meets, TimeRange.Contains]
    decide
  · rw [hlist none none, hperm]
    cases hopen
    rfl

end Catalog

end EventCatalog
