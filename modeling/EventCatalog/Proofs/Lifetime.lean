import EventCatalog.Proofs.Refinement

/-!
# The lifetime of a catalog

Whatever is done to a catalog that was opened on an index of events, it holds documents of events only
(`Catalog.OfEvents`), and so do the snapshots that its readers see. That holds of all changes, also of those
that go by a query or drop everything, and of closing the catalog and opening it again (`Change`). It does
not matter whether they succeed. Events can be committed to it at any time, for which the schema of the index
is enough (`Catalog.TakesEvents`).

The only way into an index is through `Catalog.stage`, which makes the document of an event. Committing
moves staged documents into a segment, strikes documents out, and merges segments, but it makes no
documents. A change is made of such steps, so what the steps keep up every change does (`Catalog.Kept`).
-/

namespace EventCatalog

/-- All documents of segments, struck out or not, are those of events. -/
def Segment.OfEvents (segments : List Segment) : Prop :=
  ∀ s ∈ segments, ∀ entry ∈ s.entries, ∃ e, entry.document = .ofEvent e

namespace Segment.OfEvents

variable {segments : List Segment}

theorem arrange (h : OfEvents segments) (newestFirst : Bool) :
    OfEvents (Index.arrange newestFirst segments) := by
  intro s hs
  exact h s (Index.mem_of_mem_arrange hs)

/-- Documents that count are documents. -/
theorem live (h : OfEvents segments) : ∀ d ∈ segments.flatMap Segment.live, ∃ e, d = .ofEvent e := by
  intro d hd
  obtain ⟨s, hs, hlive⟩ := List.mem_flatMap.1 hd
  obtain ⟨entry, hentry, hsome⟩ := List.mem_filterMap.1 hlive
  obtain ⟨e, he⟩ := h s hs entry hentry
  refine ⟨e, ?_⟩
  -- what was struck out is not among the documents that count
  split at hsome
  · rw [← Option.some.inj hsome, he]
  · exact nomatch hsome

end Segment.OfEvents

namespace Writer

variable {ix : Index} {w : Writer}

/-- Striking out documents makes none. -/
theorem ofEvents_carryOut {segments : List Segment} (h : Segment.OfEvents segments) (w : Writer)
    (schema : Schema) (commit : Nat) :
    Segment.OfEvents (segments.map (w.carryOut schema commit)) := by
  intro s' hs' entry' hentry'
  obtain ⟨s, hs, rfl⟩ := List.mem_map.1 hs'
  obtain ⟨entry, hentry, rfl⟩ := List.mem_map.1 hentry'
  exact h s hs entry hentry

/-- The staged documents become a segment. -/
theorem ofEvents_flush (h : Segment.OfEvents ix.segments)
    (hw : ∀ a ∈ w.additions, ∃ e, a.document = .ofEvent e) (deal : Deal) :
    Segment.OfEvents (w.flush ix deal).1 := by
  intro s hs entry hentry
  rcases mem_flush_cases hs with hs | ⟨group, hgroup, id, rfl⟩
  · exact h s hs entry hentry
  · obtain ⟨a, ha, rfl⟩ := List.mem_map.1 hentry
    exact hw a (Deal.mem_of_mem_groups hgroup ha)

theorem ofEvents_commit (h : Segment.OfEvents ix.segments)
    (hw : ∀ a ∈ w.additions, ∃ e, a.document = .ofEvent e) (deal : Deal := .together) :
    Segment.OfEvents (w.commit ix deal).1.segments :=
  (ofEvents_carryOut (ofEvents_flush h hw deal) _ _ _).arrange _

/-- What is staged after a document was added was staged before, or is the document. -/
theorem mem_additions_add {w : Writer} {d : Document} {a : Addition} (h : a ∈ (w.add d).additions) :
    a ∈ w.additions ∨ a.document = d := by
  unfold add at h
  split at h
  · exact .inl h
  -- the first document of a segment also moves the writer on, which stages nothing
  · rcases List.mem_append.1 h with h | h
    · split at h
      · rw [Writer.additions_look] at h
        exact .inl h
      · exact .inl h
    · rw [List.mem_singleton.1 h]
      exact .inr rfl

/-- Nothing is staged after a commit. -/
theorem additions_commit (w : Writer) (ix : Index) (deal : Deal := .together) :
    (w.commit ix deal).2.additions = [] := by
  obtain ⟨_, _, -, -, hflush⟩ := exists_flush_eq w ix deal
  obtain ⟨_, -, hcommit⟩ := exists_commit_eq w ix deal
  rw [hcommit, hflush]

/-- Merging segments keeps their documents. -/
theorem ofEvents_consolidate (h : Segment.OfEvents ix.segments) :
    Segment.OfEvents ix.consolidate.segments := by
  unfold Index.consolidate
  dsimp only
  split
  · intro s hs
    -- where no document counts, merging leaves no segment
    exact absurd hs List.not_mem_nil
  · intro s hs entry hentry
    rw [List.mem_singleton.1 hs] at hentry
    obtain ⟨d, hd, rfl⟩ := List.mem_map.1 hentry
    exact h.live d hd

end Writer

/-- Giving a lease back leaves what readers see. -/
theorem SnapshotSlot.segments_release (slot : SnapshotSlot) (lease : Lease) :
    (slot.release lease).current.segments = slot.current.segments := by
  unfold release
  split <;> rfl

/-! ### Changes of a catalog -/

/-- Something that is done to a catalog. -/
inductive Change where
  | run (op : Operation)
  | deleteByFilter (now : Instant) (f : Filter)
  | purge (now : Instant) (age : Duration)
  | clear (now : Instant)
  /-- A reader takes a lease on the current snapshot. -/
  | acquire
  /-- A reader gives a lease back. -/
  | release (lease : Lease)
  /-- Closes the catalog and opens it again. -/
  | reopen

/-- The catalog afterwards. -/
def Change.apply (c : Catalog) : Change → Catalog
  | run op => (op.run c).2
  | deleteByFilter now f => (c.deleteByFilter now f).2
  | purge now age => (c.purgeOlder now age).2
  | clear now => (c.clear now).2
  | acquire => { c with slot := c.slot.acquire.2 }
  | release lease => { c with slot := c.slot.release lease }
  | reopen => (Catalog.openDirectory c.name c.config c.close false).toOption.getD c

namespace Catalog

/-- Every change but clearing and reopening is made of a few steps. `Kept P Q` says that they keep up `P`,
where `Q` is what holds between the steps of one change. -/
structure Kept (P Q : Catalog → Prop) : Prop where
  relax : ∀ {c}, P c → Q c
  stage : ∀ {c} (e : Event), P c → P (c.stage e)
  stageRemove : ∀ {c} (u : Uuid), Q c → Q (c.stageRemove u)
  remove : ∀ {c} (q : Query), Q c → Q { c with writer := c.writer.remove q }
  lease : ∀ {c} (slot : SnapshotSlot), slot.current.segments = c.slot.current.segments → P c →
    P { c with slot := slot }
  commit : ∀ {c} (now : Instant) (force : Bool), Q c → P (c.commit now force).2

namespace Kept

variable {P Q : Catalog → Prop} {c : Catalog}

/-- Where nothing is said of the writer, the snapshots and the changes so far, staging and leases make no
difference, and only commits have to be looked at. -/
theorem of_commit
    (hblind : ∀ {c : Catalog} (w : Writer) (slot : SnapshotSlot) (n : Nat), P c →
      P { c with writer := w, slot := slot, sinceOptimize := n })
    (hcommit : ∀ {c : Catalog} (now : Instant) (force : Bool), P c → P (c.commit now force).2) :
    Kept P P where
  relax := id
  -- staging changes the writer and the count of changes, and no more
  stage := fun {c} e h => by
    unfold Catalog.stage Catalog.stageRemove
    split <;> exact hblind (c := c) _ c.slot _ h
  stageRemove := fun {c} u h => by
    unfold Catalog.stageRemove
    split <;> exact hblind (c := c) _ c.slot c.sinceOptimize h
  remove := fun {c} _ h => hblind _ c.slot c.sinceOptimize h
  lease := fun {c} slot _ h => hblind c.writer slot c.sinceOptimize h
  commit := hcommit

theorem stageAll (hkept : Kept P Q) (h : P c) (events : List Event) : P (c.stageAll events) :=
  List.foldlRecOn events Catalog.stage h fun _ hc e _ => hkept.stage e hc

theorem stageRemoveAll (hkept : Kept P Q) (h : Q c) (uuids : List Uuid) :
    Q (uuids.foldl Catalog.stageRemove c) :=
  List.foldlRecOn uuids Catalog.stageRemove h fun _ hc u _ => hkept.stageRemove u hc

theorem run (hkept : Kept P Q) (h : P c) (op : Operation) : P (op.run c).2 := by
  cases op with
  | stage e => exact hkept.stage e h
  | commit now force => exact hkept.commit now force (hkept.relax h)
  | add now e => exact hkept.commit now false (hkept.relax (hkept.stage e h))
  | addMany now events => exact hkept.commit now false (hkept.relax (hkept.stageAll h events))
  | delete now u => exact hkept.commit now false (hkept.stageRemove u (hkept.relax h))
  | deleteMany now uuids =>
    simp only [Operation.run, deleteMany]
    split
    · exact h
    · exact hkept.commit now true (hkept.stageRemoveAll (hkept.relax h) uuids)
  | optimize now => exact hkept.commit now true (hkept.relax h)

theorem deleteSelected (hkept : Kept P Q) (h : P c) (now : Instant) (q : Query) :
    P (c.deleteSelected now q).2 := by
  unfold Catalog.deleteSelected
  split
  · exact hkept.commit now true (hkept.remove q (hkept.relax h))
  · exact h

/-- **One change** keeps up what its steps do, if clearing and reopening do. -/
theorem apply (hkept : Kept P Q) (h : P c) (change : Change)
    (hclear : ∀ now, change = .clear now → P (c.clear now).2)
    (hreopen : ∀ c', change = .reopen → openDirectory c.name c.config c.close false = .ok c' → P c') :
    P (change.apply c) := by
  cases change with
  | run op => exact hkept.run h op
  | deleteByFilter now f =>
    simp only [Change.apply, Catalog.deleteByFilter]
    split
    · exact h
    -- only a filter that can be run gets as far as the removal
    · exact hkept.deleteSelected h now _
  | purge now age =>
    simp only [Change.apply, Catalog.purgeOlder]
    split
    · exact h
    · split
      · exact h
      · exact hkept.deleteSelected h now _
  | clear now => exact hclear now rfl
  | acquire => exact hkept.lease c.slot.acquire.2 rfl h
  | release lease => exact hkept.lease (c.slot.release lease) (c.slot.segments_release lease) h
  | reopen =>
    simp only [Change.apply]
    cases hopen : openDirectory c.name c.config c.close false with
    | error e => exact h
    | ok c' => exact hreopen c' rfl hopen

end Kept

/-! ### Catalogs that take events -/

variable {c : Catalog}

/-- An event can be committed at any time: documents of events fit the schema, and so does what is staged. -/
structure TakesEvents (c : Catalog) : Prop where
  accepts : ∀ e, Index.accepts c.index.schema (.ofEvent e) = true
  canCommit : c.writer.canCommit c.index.schema = true

/-- So it is in a catalog with the schema of events, whatever is stored in it. -/
theorem takesEvents_of_schema (hschema : c.index.schema = .events)
    (hstaged : ∀ a ∈ c.writer.additions, ∃ e, a.document = .ofEvent e) : c.TakesEvents where
  accepts e := by
    rw [hschema]
    exact Index.accepts_ofEvent e
  canCommit := by
    -- a commit fails on a document with a value of the wrong kind, and documents of events have none
    rw [hschema, Writer.canCommit, List.all_eq_true]
    intro a ha
    obtain ⟨e, he⟩ := hstaged a ha
    rw [he]
    exact Index.accepts_ofEvent e

/-- Then committing succeeds. -/
theorem TakesEvents.commit_ok (h : c.TakesEvents) (now : Occasion) (force : Bool) :
    (c.commit now force).1 = .ok () := by
  unfold Catalog.commit
  rw [if_pos h.canCommit]

theorem TakesEvents.stageRemove (h : c.TakesEvents) (u : Uuid) : (c.stageRemove u).TakesEvents := by
  unfold Catalog.stageRemove
  split
  · exact { h with }
  · exact { h with }

/-- Nothing is staged after a commit, so there is nothing that could not be committed. -/
theorem TakesEvents.commit (h : c.TakesEvents) (now : Occasion) (force : Bool) :
    (c.commit now force).2.TakesEvents := by
  obtain ⟨ix, w, ⟨hschema, hnone⟩, heq⟩ := commit_written h.canCommit now force
    (P := fun ix w => ix.schema = c.index.schema ∧ w.additions = [])
    ⟨rfl, Writer.additions_commit c.writer c.index now.deal⟩
    ⟨rfl, Writer.additions_commit c.writer c.index now.deal⟩
  rw [heq]
  refine ⟨fun e => ?_, ?_⟩
  · change Index.accepts ix.schema _ = true
    rw [hschema]
    exact h.accepts e
  · rw [Writer.canCommit, hnone]
    rfl

/-- **Whatever steps are taken**, events can be committed afterwards. -/
theorem kept_takesEvents : Kept TakesEvents TakesEvents where
  relax := id
  stage := fun e h => by
    have hr := h.stageRemove e.uuid
    refine ⟨hr.accepts, List.all_eq_true.2 fun a ha => ?_⟩
    rcases Writer.mem_additions_add ha with ha | hdocument
    · exact List.all_eq_true.1 hr.canCommit a ha
    · rw [hdocument]
      exact hr.accepts e
  stageRemove := fun u h => h.stageRemove u
  remove := fun _ h => { h with }
  lease := fun _ _ h => { h with }
  commit := fun now force h => h.commit now force

/-! ### Catalogs of events -/

/-- A catalog of events: what is stored, what is staged and what readers see are documents of events. -/
structure OfEvents (c : Catalog) : Prop where
  schema_eq : c.index.schema = .events
  in_range : c.config.rejections = []
  stored : Segment.OfEvents c.index.segments
  staged : ∀ a ∈ c.writer.additions, ∃ e, a.document = .ofEvent e
  shown : Segment.OfEvents c.slot.current.segments

theorem OfEvents.holdsEvents (h : c.OfEvents) : c.HoldsEvents where
  schema_eq := h.schema_eq
  in_range := h.in_range
  shown := h.shown.live

theorem OfEvents.takesEvents (h : c.OfEvents) : c.TakesEvents := takesEvents_of_schema h.schema_eq h.staged

/-- Documents of events can always be committed. -/
theorem OfEvents.canCommit (h : c.OfEvents) : c.writer.canCommit c.index.schema = true :=
  h.takesEvents.canCommit

theorem OfEvents.commit_ok (h : c.OfEvents) (now : Instant) (force : Bool) :
    (c.commit now force).1 = .ok () := h.takesEvents.commit_ok now force

/-- Removals stage no documents. -/
theorem OfEvents.stageRemove (h : c.OfEvents) (u : Uuid) : (c.stageRemove u).OfEvents := by
  unfold Catalog.stageRemove
  split
  · exact { h with }
  · exact { h with }

theorem OfEvents.stage (h : c.OfEvents) (e : Event) : (c.stage e).OfEvents := by
  have hr := h.stageRemove e.uuid
  refine { hr with staged := fun a ha => ?_ }
  rcases Writer.mem_additions_add ha with ha | hdocument
  · exact hr.staged a ha
  · exact ⟨e, hdocument⟩

/-- **A commit makes no documents**, whether it succeeds or not. -/
theorem OfEvents.commit (h : c.OfEvents) (now : Instant) (force : Bool) :
    (c.commit now force).2.OfEvents := by
  by_cases hcan : c.writer.canCommit c.index.schema = true
  · have hcommit := Writer.ofEvents_commit h.stored h.staged
    have hnone := Writer.additions_commit c.writer c.index
    obtain ⟨ix, w, ⟨hschema, hstored, hnone⟩, heq⟩ := commit_written hcan now force
      (P := fun ix w => ix.schema = c.index.schema ∧ Segment.OfEvents ix.segments ∧ w.additions = [])
      ⟨rfl, hcommit, hnone⟩ ⟨rfl, Writer.ofEvents_consolidate hcommit, hnone⟩
    rw [heq]
    refine { schema_eq := hschema.trans h.schema_eq, in_range := h.in_range, stored := hstored,
             staged := ?_, shown := ?_ }
    · intro a ha
      rw [hnone] at ha
      exact absurd ha List.not_mem_nil
    -- readers keep the old segments or see the stored ones
    · change Segment.OfEvents (c.slot.publish ix.segments).2.current.segments
      unfold SnapshotSlot.publish
      split
      · exact h.shown
      · exact hstored
  -- a commit that fails only drops what was staged
  · unfold Catalog.commit
    rw [if_neg hcan]
    exact { h with staged := fun a ha => absurd ha List.not_mem_nil }

/-- An index of events is opened as a catalog of events. -/
theorem ofEvents_ofIndex {name : String} {config : SearchConfig} {ix : Index} {locked : Bool}
    (hconfig : config.rejections = []) (hschema : ix.schema = .events)
    (hix : Segment.OfEvents ix.segments) (h : ofIndex name config ix locked = .ok c) :
    c.OfEvents := by
  have hstored : Segment.OfEvents ix.rewound.segments := by
    intro s hs
    obtain ⟨u, hu, rfl⟩ := Index.mem_rewound hs
    exact hix u hu
  obtain rfl := eq_of_ofIndex h
  exact {
    schema_eq := hschema
    in_range := hconfig
    stored := hstored
    staged := fun a ha => absurd ha List.not_mem_nil
    shown := hstored }

theorem ofEvents_of_fresh {name : String} {config : SearchConfig}
    (h : create name config = .ok c ∨ ∃ locked, openDirectory name config .absent locked = .ok c) :
    c.OfEvents := by
  obtain ⟨hconfig, locked, hix⟩ := ofIndex_of_fresh h
  exact ofEvents_ofIndex hconfig rfl (fun s hs => absurd hs List.not_mem_nil) hix

/-- The catalog that clearing commits: nothing is stored, and the numbers are set back. -/
def emptied (c : Catalog) : Catalog := { c with index := c.index.clear, writer := c.writer.restart }

theorem clear_eq (c : Catalog) (now : Instant) : c.clear now = c.emptied.commit now true := rfl

theorem OfEvents.emptied (h : c.OfEvents) : c.emptied.OfEvents :=
  { h with stored := fun _ hs => absurd hs List.not_mem_nil }

theorem kept_ofEvents : Kept OfEvents OfEvents where
  relax := id
  stage := fun e h => h.stage e
  stageRemove := fun u h => h.stageRemove u
  remove := fun _ h => { h with }
  lease := fun _ hsegments h => { h with shown := hsegments ▸ h.shown }
  commit := fun now force h => h.commit now force

/-- **One change** of a catalog of events leaves one. -/
theorem OfEvents.apply (h : c.OfEvents) (change : Change) : (change.apply c).OfEvents := by
  refine kept_ofEvents.apply h change ?_ ?_
  · rintro now rfl
    exact h.emptied.commit now true
  · intro c' _ hopen
    exact ofEvents_ofIndex h.in_range h.schema_eq h.stored (ofIndex_of_openDirectory hopen).2

/-- **In the lifetime of a catalog** of events it stays one. -/
theorem OfEvents.changes (h : c.OfEvents) (changes : List Change) :
    (changes.foldl Change.apply c).OfEvents :=
  List.foldlRecOn changes Change.apply h fun _ hc change _ => hc.apply change

/-! ### Settings -/

/-- The name and the configuration of a catalog stay as they are. -/
theorem kept_settings (name : String) (config : SearchConfig) :
    Kept (fun c => c.name = name ∧ c.config = config) fun c => c.name = name ∧ c.config = config :=
  .of_commit (fun _ _ _ h => h) fun {c} now force h => by
    unfold commit
    split <;> exact h

theorem settings_changes {name : String} {config : SearchConfig}
    (h : c.name = name ∧ c.config = config) (changes : List Change) :
    (changes.foldl Change.apply c).name = name ∧ (changes.foldl Change.apply c).config = config := by
  refine List.foldlRecOn (motive := fun c => c.name = name ∧ c.config = config) changes Change.apply h
    fun c hc change _ => ?_
  refine (kept_settings name config).apply hc change ?_ ?_
  · exact fun now _ => (kept_settings name config).commit now true hc
  -- a directory is opened again under the name and the configuration it had
  · rintro c' - hopen
    obtain rfl := eq_of_ofIndex (ofIndex_of_openDirectory hopen).2
    exact hc

end Catalog

end EventCatalog
