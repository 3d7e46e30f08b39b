import Mathlib.Data.List.Basic
import EventCatalog.Proofs.EventDocument

/-!
# The fields of events

What the event index holds of an event in the fields that are looked up by value: one number in each of
`Event.numbers`, and the texts of `Event.names`, of which there may be none or several. A number is found
by a term or an interval. A text is found by a term if it is short enough to be indexed
(`Event.HasShortNames`): each of the texts is a token of its own, so it is found as a whole or not at all.
-/

namespace EventCatalog

/-- The numbers of an event, by the fields that hold them. -/
def Event.numbers (e : Event) : List (String × Int) := [
  (Field.status, e.status.code),
  (Field.severity, e.severity.code),
  (Field.count, e.count.toNat),
  (Field.firstSeen, e.firstSeen.millis),
  (Field.lastSeen, e.lastSeen.millis),
  (Field.statusChange, e.statusChange.millis),
  (Field.updateTime, e.updateTime.millis)]

/-- The names that go with an event, by the fields that hold them. -/
def Event.names (e : Event) : List (String × List String) := [
  (Field.tag, e.tags),
  (Field.acknowledgedByName, e.acknowledgedByName.toList),
  (Field.agent, e.agent.toList),
  (Field.monitor, e.monitor.toList)]

/-- All names that go with an event are short enough to be indexed. -/
def Event.HasShortNames (e : Event) : Prop :=
  ∀ p ∈ e.names, ∀ s ∈ p.2, Analysis.byteLength s.toList ≤ maxTokenBytes

instance (e : Event) : Decidable e.HasShortNames :=
  inferInstanceAs (Decidable (∀ p ∈ e.names, ∀ s ∈ p.2, Analysis.byteLength s.toList ≤ maxTokenBytes))

namespace Document

variable {e : Event} {field : String}

/-! ### What a document holds -/

/-- A value of another field does not count. -/
theorem get_cons_of_ne {name : String} (h : (name == field) = false) (v : FieldValue)
    (l : List (String × FieldValue)) : get ⟨(name, v) :: l⟩ field = get ⟨l⟩ field := by
  -- the value is passed over by its name
  simp only [get]
  rw [List.filterMap_cons_none (by simp only [h]; rfl)]

theorem get_map_self (field : String) (l : List String) :
    get ⟨l.map fun t => (field, FieldValue.text t)⟩ field = l.map .text := by
  rw [get, List.filterMap_map, ← List.filterMap_eq_map]
  refine List.filterMap_congr fun t _ => ?_
  simp only [Function.comp_apply, beq_self_eq_true, if_true]

theorem get_optionalText_self (field : String) (o : Option String) :
    get ⟨optionalText field o⟩ field = o.toList.map .text := by
  cases o with
  | none => rfl
  | some s => exact get_map_self field [s]

/-- The document of an event has its numbers. -/
theorem ints_of_mem_numbers {n : Int} (h : (field, n) ∈ e.numbers) :
    (ofEvent e).ints field = [n] := by
  simp only [Event.numbers, List.mem_cons, Prod.mk.injEq, List.not_mem_nil, or_false] at h
  -- one case for each field; the sub-element is the only part that may be missing
  rcases h with ⟨rfl, rfl⟩ | ⟨rfl, rfl⟩ | ⟨rfl, rfl⟩ | ⟨rfl, rfl⟩ | ⟨rfl, rfl⟩ | ⟨rfl, rfl⟩ | ⟨rfl, rfl⟩
  all_goals
    rw [ints, get_ofEvent e rfl rfl rfl rfl]
    split <;> rfl

/-- The document of an event has the names that go with it. -/
theorem texts_of_mem_names {ts : List String} (h : (field, ts) ∈ e.names) :
    (ofEvent e).texts field = ts := by
  have hnil : ∀ field : String, get ⟨[]⟩ field = [] := fun _ => rfl
  have hvalues : (ofEvent e).get field = ts.map .text := by
    simp only [Event.names, List.mem_cons, Prod.mk.injEq, List.not_mem_nil, or_false] at h
    -- one case for each field, whose values are all in one part of the document
    rcases h with ⟨rfl, rfl⟩ | ⟨rfl, rfl⟩ | ⟨rfl, rfl⟩ | ⟨rfl, rfl⟩
    all_goals
      rw [ofEvent]
      split
      all_goals
        simp (disch := decide) only [get_append, get_cons_of_ne, hnil, get_map_self, get_map_of_ne,
          get_optionalText_self, get_optionalText_of_ne, List.nil_append, List.append_nil]
  rw [texts, hvalues, List.filterMap_map]
  exact List.filterMap_some

/-! ### What is found -/

/-- Looked up as a whole, a text is found if it is among those of the field and short enough. -/
theorem any_tokensFrom_keyword (start : Nat) (ts : List String) (s : String) :
    ((tokensFrom .keyword start ts).any fun t => t.2 == s.toList) = true ↔
      s ∈ ts ∧ Analysis.byteLength s.toList ≤ maxTokenBytes := by
  induction ts generalizing start with
  | nil => simp [tokensFrom]
  | cons t ts ih =>
    rw [tokensFrom, List.any_append, Bool.or_eq_true, ih, List.mem_cons]
    -- the first text is a token, or too long to be one
    have hfirst : ((((Analyzer.keyword.tokens t.toList).filter fun t =>
        Analysis.byteLength t.text ≤ maxTokenBytes).map fun t => (start + t.position, t.text)).any
          fun t => t.2 == s.toList) = true ↔
        s = t ∧ Analysis.byteLength s.toList ≤ maxTokenBytes := by
      simp only [Analyzer.tokens, List.filter_cons, List.filter_nil]
      split
      · next hshort =>
        simp only [decide_eq_true_eq] at hshort
        simp only [List.map_cons, List.map_nil, List.any_cons, List.any_nil, Bool.or_false, beq_iff_eq]
        constructor
        · intro heq
          obtain rfl := String.toList_injective heq
          exact ⟨rfl, hshort⟩
        · rintro ⟨rfl, -⟩
          rfl
      · next hlong =>
        simp only [decide_eq_true_eq] at hlong
        simp only [List.map_nil, List.any_nil, Bool.false_eq_true, false_iff]
        rintro ⟨rfl, hshort⟩
        exact hlong hshort
    rw [hfirst, or_and_right]

end Document

namespace Query

variable {e : Event} {field : String}

/-- A term of a name selects the events that have the name, if their names in that field are short enough to
be indexed. -/
theorem selects_text {ts : List String} (hfield : (field, ts) ∈ e.names)
    (hshort : ∀ t ∈ ts, Analysis.byteLength t.toList ≤ maxTokenBytes) (s : String) :
    (term field (.text s)).selects .events (.ofEvent e) = true ↔ s ∈ ts := by
  have htokens : textTokens .events (.ofEvent e) field =
      Document.tokens (.ofEvent e) .keyword field := by
    simp only [Event.names, List.mem_cons, Prod.mk.injEq, List.not_mem_nil, or_false] at hfield
    -- the fields of names are analyzed as keywords, all four of them
    rcases hfield with ⟨rfl, -⟩ | ⟨rfl, -⟩ | ⟨rfl, -⟩ | ⟨rfl, -⟩ <;> rfl
  rw [selects, htokens, Document.tokens, Document.texts_of_mem_names hfield,
    Document.any_tokensFrom_keyword]
  exact and_iff_left_of_imp fun hs => hshort s hs

/-- **A term of a name** selects the events that have the name. -/
theorem selects_name {ts : List String} (hfield : (field, ts) ∈ e.names) (he : e.HasShortNames)
    (s : String) : (term field (.text s)).selects .events (.ofEvent e) = true ↔ s ∈ ts :=
  selects_text hfield (he _ hfield) s

/-- The numbers of an event are indexed and have columns. -/
theorem numbers_ofEvent {n : Int} (hfield : (field, n) ∈ e.numbers) {usable : Field → Bool}
    (husable : ∀ f, f.isIndexed = true → usable f = true) :
    numbers .events (.ofEvent e) field usable = [n] := by
  obtain ⟨f, hf, htype, hindexed⟩ : ∃ f, Schema.field? .events field = some f ∧
      f.type = .integer ∧ f.isIndexed = true := by
    simp only [Event.numbers, List.mem_cons, Prod.mk.injEq, List.not_mem_nil, or_false] at hfield
    rcases hfield with ⟨rfl, -⟩ | ⟨rfl, -⟩ | ⟨rfl, -⟩ | ⟨rfl, -⟩ | ⟨rfl, -⟩ | ⟨rfl, -⟩ | ⟨rfl, -⟩ <;>
      exact ⟨_, rfl, rfl, rfl⟩
  simp only [numbers, hf, htype, husable f hindexed, Document.ints_of_mem_numbers hfield]
  rfl

/-- **A term of a number** selects the events that have the number. -/
theorem selects_number {n : Int} (hfield : (field, n) ∈ e.numbers) (m : Int) :
    (term field (.int m)).selects .events (.ofEvent e) = true ↔ n = m := by
  rw [selects, numbers_ofEvent hfield fun _ h => h]
  simp [eq_comm]

/-- **An interval** selects the events whose number lies in it. -/
theorem selects_range {n : Int} (hfield : (field, n) ∈ e.numbers) (least greatest : Option Int) :
    (range field least greatest).selects .events (.ofEvent e) = true ↔
      (∀ m ∈ least, m ≤ n) ∧ ∀ m ∈ greatest, n ≤ m := by
  rw [selects, numbers_ofEvent hfield fun f h => by simp [h], List.any_cons, List.any_nil,
    Bool.or_false, inInterval, Bool.and_eq_true]
  cases least <;> cases greatest <;> simp

end Query

end EventCatalog
