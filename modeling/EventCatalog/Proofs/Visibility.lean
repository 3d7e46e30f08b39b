import EventCatalog.Proofs.Lifetime

/-!
# The events that readers see

`Catalog.visible` are the events of the current snapshot. All that readers get of a catalog of events can
be said in terms of them: the number of documents is theirs, and a list shows those that the query of its
filter selects, page by page, in the order of its sort (`Catalog.list_visible`).
-/

namespace EventCatalog

/-- Documents of events are those of the events that are read back from them. -/
theorem Document.eq_map_ofEvent {docs : List Document} (h : ∀ d ∈ docs, ∃ e, d = .ofEvent e) :
    docs = (docs.filterMap fun d => d.event.toOption).map .ofEvent := by
  induction docs with
  | nil => rfl
  | cons d rest ih =>
    obtain ⟨e, rfl⟩ := h d List.mem_cons_self
    rw [List.filterMap_cons_some (b := e) (by rw [event_ofEvent]; rfl), List.map_cons,
      ← ih fun d hd => h d (List.mem_cons_of_mem _ hd)]

/-- The events that are read back from documents. -/
def Document.events (docs : List Document) : List Event := docs.filterMap fun d => d.event.toOption

theorem Document.events_map_ofEvent (events : List Event) : Document.events (events.map .ofEvent) = events := by
  rw [Document.events, List.filterMap_map]
  simp only [Function.comp_def, Document.event_ofEvent]
  exact List.filterMap_some

namespace Catalog

/-- The events that readers see, in the order in which they are searched. -/
def visible (c : Catalog) : List Event :=
  c.slot.current.documents.filterMap fun d => d.event.toOption

variable {c : Catalog}

/-- What is searched are the documents of the visible events. -/
theorem HoldsEvents.documents_eq (hc : c.HoldsEvents) :
    c.slot.current.documents = c.visible.map .ofEvent :=
  Document.eq_map_ofEvent hc.shown

theorem HoldsEvents.mem_visible (hc : c.HoldsEvents) {e : Event} :
    e ∈ c.visible ↔ Document.ofEvent e ∈ c.slot.current.documents := by
  rw [hc.documents_eq]
  exact (List.mem_map_of_injective fun _ _ => Document.ofEvent_injective).symm

/-- Documents of events make those events visible. -/
theorem visible_eq_of_documents {events : List Event}
    (h : c.slot.current.documents = events.map .ofEvent) : c.visible = events := by
  rw [visible, h]
  exact Document.events_map_ofEvent events

/-- The visible events of a catalog whose documents are known. -/
theorem HoldsEvents.visible_perm (h : c.HoldsEvents) {events : List Event}
    (hperm : c.slot.current.documents.Perm (events.map .ofEvent)) : c.visible.Perm events := by
  rw [h.documents_eq] at hperm
  exact (List.map_perm_map_iff fun _ _ => Document.ofEvent_injective).1 hperm

/-- The statistics count the visible events. -/
theorem HoldsEvents.documents_stats (hc : c.HoldsEvents) : c.stats.documents = c.visible.length := by
  change c.slot.current.documents.length = _
  rw [hc.documents_eq, List.length_map]

/-- **An event is found by its identifier** if it is visible. -/
theorem HoldsEvents.find_eq (hc : c.HoldsEvents) (u : Uuid) :
    c.find u = .ok (c.visible.find? fun e => e.uuid == u) := by
  have hfound : (c.slot.current.documents.find? fun d => (keyQuery u).selects .events d) =
      (c.visible.find? fun e => e.uuid == u).map .ofEvent := by
    simp only [hc.documents_eq, List.find?_map, Function.comp_def, selects_keyQuery]
  unfold find
  rw [hc.schema_eq]
  simp only [isRunnable_keyQuery, Bool.not_true, Bool.false_eq_true, if_false]
  refine reading_of_documents fun s hs => ?_
  -- the first document with the key is that of the first event with the identifier
  rw [hs, hfound]
  cases c.visible.find? fun e => e.uuid == u with
  | none => rfl
  | some e =>
    simp only [Option.map_some, eventOf, Document.event_ofEvent]
    rfl

/-- **A list shows what the query of its filter selects.** However a request is paged, the pages are those
of one list of the selected events. -/
theorem list_visible (hc : c.HoldsEvents) (r : Request) {q : Query}
    (hq : Query.ofFilter .events r.filter = .ok q) :
    ∃ found : List Event,
      found.Perm (c.visible.filter fun e => q.selects .events (.ofEvent e)) ∧
      ∀ limit offset, c.list { r with limit := limit, offset := offset } =
        .ok (({ r with limit := limit, offset := offset } : Request).pageOf c.config.maxResults found) := by
  obtain ⟨found, hfound, -⟩ := list_eq_pageOf hc hq
  refine ⟨found.map Prod.snd, ?_, fun limit offset => ?_⟩
  -- forget the addresses, and go from the documents to their events
  · have hdocuments : ((found.map Prod.snd).map Document.ofEvent).Perm
        ((c.visible.filter fun e => q.selects .events (.ofEvent e)).map .ofEvent) := by
      have hperm := hfound.perm.map Prod.snd
      have hselected : (c.slot.current.located.filter fun p => q.selects .events p.2).map Prod.snd =
          (c.slot.current.documents).filter (q.selects .events) := by
        rw [← c.slot.current.map_snd_located, List.filter_map]
        rfl
      rw [hselected, hc.documents_eq, List.filter_map, List.map_map] at hperm
      rw [List.map_map]
      exact hperm
    exact (List.map_perm_map_iff fun _ _ => Document.ofEvent_injective).1 hdocuments
  -- neither the filter nor the sort depends on the paging
  · obtain ⟨found', hfound', hlist⟩ :=
      list_eq_pageOf hc (r := { r with limit := limit, offset := offset }) hq
    rw [hlist, hfound.unique hfound']

/-- A filter that is refused is refused on every page. -/
theorem list_error (hc : c.HoldsEvents) {r : Request} {e : CatalogError}
    (he : Query.ofFilter .events r.filter = .error e) : c.list r = .error e := by
  unfold list
  rw [hc.schema_eq, he]
  rfl

/-! ### Events that have been committed before -/

/-- An index of one segment. -/
def indexOf (events : List Event) : Index where
  schema := .events
  segments := [⟨0, events.map fun e => ⟨.ofEvent e, true⟩, none, 0⟩]
  nextId := 1
  stamp := 2 * events.length

theorem stored_indexOf (events : List Event) : Segment.OfEvents (indexOf events).segments := by
  intro s hs entry hentry
  obtain rfl := List.mem_singleton.1 hs
  obtain ⟨e, -, rfl⟩ := List.mem_map.1 hentry
  exact ⟨e, rfl⟩

theorem documents_indexOf (events : List Event) : (indexOf events).documents = events.map .ofEvent := by
  have hlive : Segment.live ⟨0, events.map fun e => ⟨.ofEvent e, true⟩, none, 0⟩ =
      events.map .ofEvent := by
    rw [Segment.live, List.filterMap_map]
    exact congrFun List.filterMap_eq_map events
  exact (List.append_nil _).trans hlive

theorem ofEvents_indexOf {events : List Event}
    (hopen : openDirectory "events" .default (.index (indexOf events)) false = .ok c) :
    c.OfEvents := by
  obtain ⟨hconfig, hix⟩ := ofIndex_of_openDirectory hopen
  exact ofEvents_ofIndex hconfig rfl (stored_indexOf events) hix

theorem opens_indexOf (name : String) (events : List Event) :
    ∃ c, openDirectory name .default (.index (indexOf events)) false = .ok c := ⟨_, rfl⟩

/-- A catalog can be opened that shows given events, and nothing else. -/
theorem exists_visible (events : List Event) :
    ∃ c, openDirectory "events" .default (.index (indexOf events)) false = .ok c ∧ c.HoldsEvents ∧
      c.visible = events ∧ c.config = .default := by
  -- an index is made of one segment with these events, and opened
  obtain ⟨c, hopen⟩ := opens_indexOf "events" events
  refine ⟨c, hopen, (ofEvents_indexOf hopen).holdsEvents, visible_eq_of_documents ?_, ?_⟩
  · cases hopen
    cases events with
    -- a segment without events is left out
    | nil => rfl
    | cons e rest => exact documents_indexOf (e :: rest)
  · cases hopen
    rfl

end Catalog

end EventCatalog
