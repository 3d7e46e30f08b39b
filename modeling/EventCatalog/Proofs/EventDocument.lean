import EventCatalog.Catalog.Basic
import EventCatalog.Proofs.EventJson

/-!
# The documents of events

An event is held by the index as a document, `Document.ofEvent`. Three facts about these documents are
all that the contents of the index depend on:

* the event is read back from its document (`Document.event_ofEvent`), so different events have
  different documents; and as the field it is read from is stored, the document that the index gives
  back does as well as the one it was given. That holds because the times of an event are instants. Of
  other timestamps the event is read back with the times that were written (`Document.event_read_back`);
* the document fits the schema of the event index (`Index.accepts_ofEvent`), so it never breaks the
  writer that is handed it;
* the query of an identifier can be run, and selects the document of an event exactly if that is its
  identifier (`Catalog.selects_keyQuery`): the identifier is a single token, short enough to be
  indexed.
-/

namespace EventCatalog

namespace Document

variable {τ : Type} [HasTimestamp τ]

/-! ### The values of a field -/

theorem get_append (a b : List (String × FieldValue)) (field : String) :
    get ⟨a ++ b⟩ field = get ⟨a⟩ field ++ get ⟨b⟩ field := by
  simp only [get, List.filterMap_append]

/-- Texts of one field are not values of another. -/
theorem get_map_of_ne {field name : String} (h : (name == field) = false) (l : List String) :
    get ⟨l.map fun t => (name, FieldValue.text t)⟩ field = [] := by
  induction l with
  | nil => rfl
  | cons t l ih =>
    simp only [get, List.map_cons] at ih ⊢
    -- a text of another field contributes nothing
    rw [List.filterMap_cons_none (by simp only [h]; rfl), ih]

theorem get_optionalText_of_ne {field name : String} (h : (name == field) = false)
    (o : Option String) : get ⟨optionalText name o⟩ field = [] := by
  cases o with
  | none => rfl
  | some s => exact get_map_of_ne h [s]

/-- The values of a field that an event has once at most: those that depend on lists and options are
of other fields. -/
theorem get_ofEvent (e : Event τ) {field : String} (htag : (Field.tag == field) = false)
    (hby : (Field.acknowledgedByName == field) = false) (hagent : (Field.agent == field) = false)
    (hmonitor : (Field.monitor == field) = false) :
    (ofEvent e).get field = get ⟨[
      (Field.uuid, .text e.uuid.render),
      (Field.status, .int e.status.code),
      (Field.severity, .int e.severity.code),
      (Field.count, .int e.count.toNat),
      (Field.firstSeen, .int (timestamp e.firstSeen).millis),
      (Field.lastSeen, .int (timestamp e.lastSeen).millis),
      (Field.statusChange, .int (timestamp e.statusChange).millis),
      (Field.updateTime, .int (timestamp e.updateTime).millis),
      (Field.element, .text e.element),
      (Field.elementKeyword, .text (Text.lower e.element))] ++
    (if e.subElement.isEmpty then [] else [
      (Field.subElement, .text e.subElement),
      (Field.subElementKeyword, .text (Text.lower e.subElement))]) ++ [
      (Field.summary, .text e.summary),
      (Field.summaryKeyword, .text (Text.lower e.summary)),
      (Field.eventClass, .text (normalizeClass e.eventClass)),
      (Field.eventJson, .text e.toJson.render)]⟩ field := by
  -- the parts of other fields fall away, and what is left stands in one list
  simp only [ofEvent, get_append, get_map_of_ne htag, get_optionalText_of_ne hby,
    get_optionalText_of_ne hagent, get_optionalText_of_ne hmonitor, List.append_nil]
  rw [List.append_assoc, ← get_append [_, _, _]]
  rfl

theorem get_uuid (e : Event τ) : (ofEvent e).get Field.uuid = [.text e.uuid.render] := by
  rw [get_ofEvent e rfl rfl rfl rfl]
  split <;> rfl

theorem get_eventJson (e : Event τ) : (ofEvent e).get Field.eventJson = [.text e.toJson.render] := by
  rw [get_ofEvent e rfl rfl rfl rfl]
  split <;> rfl

/-! ### Reading the event back -/

/-- What is read of the document of an event are its times as they are written, and all else of it. -/
theorem event_eq_asWritten (e : Event τ) : (ofEvent e).event = .ok e.asWritten := by
  unfold event
  rw [get_eventJson]
  exact e.decodeText_render

/-- **The event of a document is the one that the document was written from.** -/
@[simp] theorem event_ofEvent (e : Event) : (ofEvent e).event = .ok e := by
  rw [event_eq_asWritten, e.asWritten_eq_self]

/-- Different events have different documents. -/
theorem ofEvent_injective {e f : Event} (h : ofEvent e = ofEvent f) : e = f := by
  have he := event_ofEvent e
  rw [h, event_ofEvent] at he
  exact (Except.ok.inj he).symm

/-- What an index gives back of a document: the values of the fields that it stores. -/
def kept (schema : Schema) (d : Document) : Document :=
  ⟨d.values.filter fun v => (schema.field? v.1).any Field.stored⟩

/-- A field that is stored loses none of its values. -/
theorem get_kept {schema : Schema} {field : String}
    (hstored : (schema.field? field).any Field.stored = true) (d : Document) :
    (d.kept schema).get field = d.get field := by
  unfold get kept
  rw [List.filterMap_filter]
  congr 1
  funext v
  by_cases hv : v.1 = field
  · rw [hv, hstored, if_pos rfl]
  -- the values of other fields count neither way
  · rw [if_neg (hv ∘ beq_iff_eq.1)]
    split <;> rfl

/-- What the event index gives back of the document of an event is read like the document itself. -/
theorem event_kept (e : Event τ) : ((ofEvent e).kept .events).event = (ofEvent e).event := by
  have hstored : (Schema.events.field? Field.eventJson).any Field.stored = true := rfl
  unfold event
  rw [get_kept hstored]

/-- **What is staged is what is read back, with the times that are written.** The event may have any timestamps.
From the document that was staged, as well as from what the event index gives back of it, the event is read with
each time as it is written. That is the event that was staged if, and only if, none of its times and those of its
notes has nanoseconds of a whole second or more, but in the last second of a minute. -/
theorem event_read_back (e : Event Timestamp) :
    (ofEvent e).event = .ok e.asWritten ∧ ((ofEvent e).kept .events).event = .ok e.asWritten ∧
      (e.asWritten.retimed Instant.toTimestamp = e ↔
        ∀ t ∈ e.times, 1000000000 ≤ t.nanos → t.seconds % 60 = 59) := by
  refine ⟨event_eq_asWritten e, (event_kept e).trans (event_eq_asWritten e), ?_⟩
  rw [Event.asWritten, Event.retimed_retimed, Event.retimed_eq_self_iff]
  exact forall₂_congr fun t _ => t.toTimestamp_asWritten_eq_iff

/-- A third of a second into the second behind 03:02:01 on the first of March 2024, counted in that second. -/
def overlong : Timestamp := ⟨1709262121, 1333333333, by decide, by decide, by decide⟩

/-- **A time is not read back.** It is of a second in the middle of a minute, and has more nanoseconds than fit into it;
what is read is the time in the next second. -/
theorem event_moved :
    let e : Event Timestamp :=
      { (Event.raise (.ofNat 1) .epoch "host" "/Status" "down" .warning).retimed Instant.toTimestamp with
        firstSeen := overlong }
    ∃ read, (ofEvent e).event = .ok read ∧ read.retimed Instant.toTimestamp ≠ e ∧
      read.firstSeen.seconds = 1709262122 ∧ read.firstSeen.nanos = 333333333 := by
  intro e
  have hmoved : overlong.asWritten.seconds = 1709262122 ∧ overlong.asWritten.nanos = 333333333 := by decide
  refine ⟨e.asWritten, event_eq_asWritten e, fun h => ?_, hmoved⟩
  -- equal events were first seen in the same second
  have hseconds : overlong.asWritten.seconds = 1709262121 :=
    congrArg (fun e : Event Timestamp => e.firstSeen.seconds) h
  omega

end Document

/-! ### The schema of events -/

namespace Index

theorem accepts_append (schema : Schema) (a b : List (String × FieldValue)) :
    accepts schema ⟨a ++ b⟩ = (accepts schema ⟨a⟩ && accepts schema ⟨b⟩) := by
  simp only [accepts, List.all_append]

/-- Where one text of a field fits, all texts do. -/
theorem accepts_map {schema : Schema} {name : String}
    (h : ∀ t, accepts schema ⟨[(name, .text t)]⟩ = true) (l : List String) :
    accepts schema ⟨l.map fun t => (name, FieldValue.text t)⟩ = true := by
  induction l with
  | nil => rfl
  | cons t l ih =>
    rw [List.map_cons, ← List.singleton_append, accepts_append, h t, ih]
    rfl

theorem accepts_optionalText {schema : Schema} {name : String}
    (h : ∀ t, accepts schema ⟨[(name, .text t)]⟩ = true) (o : Option String) :
    accepts schema ⟨Document.optionalText name o⟩ = true := by
  cases o with
  | none => rfl
  | some s => exact h s

/-- The document of an event fits the schema of the event index. -/
theorem accepts_ofEvent (e : Event) : accepts .events (.ofEvent e) = true := by
  simp only [Document.ofEvent, accepts_append, Bool.and_eq_true]
  -- the parts with a fixed form are checked by themselves; the others depend on the event
  refine ⟨⟨⟨⟨⟨⟨⟨rfl, ?_⟩, rfl⟩, ?_⟩, ?_⟩, ?_⟩, ?_⟩, rfl⟩
  · split <;> rfl
  · exact accepts_map (fun _ => rfl) e.tags
  · exact accepts_optionalText (fun _ => rfl) e.acknowledgedByName
  · exact accepts_optionalText (fun _ => rfl) e.agent
  · exact accepts_optionalText (fun _ => rfl) e.monitor

end Index

namespace Catalog

/-! ### The query of an identifier -/

theorem isRunnable_keyQuery (u : Uuid) : (keyQuery u).isRunnable .events = true := by
  rw [keyQuery, Query.isRunnable]
  rfl

/-- The written form of an identifier is short enough to be indexed. -/
private theorem byteLength_render_le (u : Uuid) :
    Analysis.byteLength u.render.toList ≤ maxTokenBytes := by
  have hlen := Analysis.byteLength_le u.render.toList
  rw [u.length_render] at hlen
  -- 36 characters of at most four bytes each
  have hmax : maxTokenBytes = 65530 := rfl
  omega

/-- The tokens of the identifier of an event: the identifier as it is written. -/
private theorem textTokens_uuid (e : Event) :
    Query.textTokens .events (.ofEvent e) Field.uuid = [(0, e.uuid.render.toList)] := by
  have htexts : (Document.ofEvent e).texts Field.uuid = [e.uuid.render] := by
    rw [Document.texts, Document.get_uuid]
    rfl
  change Document.tokens (.ofEvent e) .keyword Field.uuid = _
  rw [Document.tokens, htexts, Document.tokensFrom, Analyzer.tokens]
  simp [byteLength_render_le, Document.tokensFrom]

/-- **The query of an identifier selects the event that has it.** -/
theorem selects_keyQuery (u : Uuid) (e : Event) :
    (keyQuery u).selects .events (.ofEvent e) = (e.uuid == u) := by
  rw [keyQuery, Query.selects, textTokens_uuid, Bool.eq_iff_iff]
  simp only [List.any_cons, List.any_nil, Bool.or_false, beq_iff_eq]
  constructor
  · intro h
    exact Uuid.render_injective (String.toList_injective h)
  · rintro rfl
    rfl

end Catalog

end EventCatalog
