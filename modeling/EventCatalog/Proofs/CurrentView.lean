import EventCatalog.Proofs.Clearing

/-!
# Readers are up to date

Between two changes of a catalog readers see exactly the segments that are stored (`Catalog.Current`), also
when the numbers of the writer have been set back. A commit that publishes nothing has changed nothing that
they could see, since segments are marked with numbers that are never lower than those before; and what
clearing leaves has numbers that no segment had before.

What readers are told depends on the documents that count in the segments of the current snapshot, and on
nothing else in it (`Catalog.sameAnswers_of_live`).
-/

namespace EventCatalog

namespace Catalog

variable {c c' : Catalog}

/-! ### The snapshot and the segments -/

/-- Readers see the segments that are stored, which are marked. -/
structure Current (c : Catalog) : Prop where
  events : c.OfEvents
  numbered : c.Numbered
  marked : Writer.Marked c.index c.writer
  shows : c.slot.Shows c.index.segments

theorem Current.remove (h : c.Current) (q : Query) :
    Current { c with writer := c.writer.remove q } where
  events := kept_ofEvents.remove q h.events
  numbered := kept_numbered.remove q h.numbered
  marked := h.marked.remove q
  shows := h.shows

theorem Current.stageRemove (h : c.Current) (u : Uuid) : (c.stageRemove u).Current := by
  have hevents := h.events.stageRemove u
  have hnumbered := h.numbered.stageRemove u
  unfold Catalog.stageRemove at hevents hnumbered ⊢
  split
  · exact h.remove _
  -- a removal that cannot be run is not staged, but takes a number
  · next hmissing =>
    rw [if_neg hmissing] at hevents hnumbered
    exact ⟨hevents, hnumbered, h.marked.tick, h.shows⟩

theorem Current.stage (h : c.Current) (e : Event) : (c.stage e).Current where
  events := h.events.stage e
  numbered := h.numbered.stage e
  marked := { (h.stageRemove e.uuid).marked.add (.ofEvent e) with }
  shows := (h.stageRemove e.uuid).shows

/-- Leases do not change what readers see. -/
theorem Current.lease (h : c.Current) {slot : SnapshotSlot}
    (hslot : slot.current.segments = c.slot.current.segments) : Current { c with slot := slot } where
  events := kept_ofEvents.lease slot hslot h.events
  numbered := kept_numbered.lease slot hslot h.numbered
  marked := h.marked
  shows := h.shows.of_segments_eq hslot

/-- **A commit leaves readers up to date**, whether or not a snapshot is published. -/
theorem Current.commit (h : c.Current) (now : Instant) (force : Bool) :
    (c.commit now force).2.Current := by
  have hevents := h.events.commit now force
  have hnumbered := h.numbered.commit now force
  -- segments that cannot be told apart by their marks have the same entries before and after
  obtain ⟨ix, w, ⟨hmarked, hentries⟩, heq⟩ := commit_written h.events.canCommit now force
    (P := fun ix w => Writer.Marked ix w ∧
      ∀ s ∈ c.index.segments, ∀ t ∈ ix.segments, s.fingerprint = t.fingerprint → s.entries = t.entries)
    ⟨h.marked.commit, Writer.entries_eq_of_commit h.marked⟩
    ⟨.consolidate, Writer.entries_eq_of_consolidate fun s hs =>
      Nat.lt_succ_of_lt (h.marked.id_lt s hs)⟩
  rw [heq] at hevents hnumbered ⊢
  exact ⟨hevents, hnumbered, hmarked, SnapshotSlot.shows_publish (h.shows.entries_eq hentries)⟩

/-- **Clearing leaves readers up to date** as well. -/
theorem Current.clear (h : c.Current) (now : Instant) : (c.clear now).2.Current := by
  -- without segments there is nothing to be marked
  have hemptied : Writer.Marked c.emptied.index c.emptied.writer :=
    ⟨.nil, fun _ hs => absurd hs List.not_mem_nil, fun _ hs => absurd hs List.not_mem_nil,
      fun _ _ hs => absurd hs List.not_mem_nil⟩
  have hcommit : Writer.Marked (c.emptied.writer.commit c.emptied.index).1
      (c.emptied.writer.commit c.emptied.index).2 := hemptied.commit
  refine ⟨h.events.apply (.clear now), h.numbered.apply (.clear now), ?_, shows_clear h.events h.numbered now⟩
  obtain ⟨ix, w, hmarked, heq⟩ := commit_written h.events.emptied.canCommit now true
    (P := Writer.Marked) hcommit .consolidate
  rw [clear_eq, heq]
  exact hmarked

theorem current_ofIndex {name : String} {config : SearchConfig} {ix : Index} {locked : Bool}
    (hevents : c.OfEvents) (hnumbered : c.Numbered) (h : ofIndex name config ix locked = .ok c) :
    c.Current := by
  obtain rfl := eq_of_ofIndex h
  -- the first snapshot is made of the segments of the index
  exact {
    events := hevents
    numbered := hnumbered
    marked := ⟨hnumbered.ids_nodup, hnumbered.id_lt, fun s hs n hn => (hnumbered.stamp_le s hs n hn).2,
      fun hne => absurd rfl hne⟩
    shows := Eq.refl _ }

theorem current_of_fresh {name : String} {config : SearchConfig}
    (h : create name config = .ok c ∨ ∃ locked, openDirectory name config .absent locked = .ok c) :
    c.Current := by
  obtain ⟨-, locked, hix⟩ := ofIndex_of_fresh h
  exact current_ofIndex (ofEvents_of_fresh h) (numbered_of_fresh h) hix

theorem kept_current : Kept Current Current where
  relax := id
  stage := fun e h => h.stage e
  stageRemove := fun u h => h.stageRemove u
  remove := fun q h => h.remove q
  lease := fun _ hslot h => h.lease hslot
  commit := fun now force h => h.commit now force

/-- **One change** leaves readers up to date. -/
theorem Current.apply (h : c.Current) (change : Change) : (change.apply c).Current := by
  refine kept_current.apply h change ?_ ?_
  · exact fun now _ => h.clear now
  · rintro c' rfl hopen
    have hevents := h.events.apply .reopen
    have hnumbered := h.numbered.apply .reopen
    rw [Change.apply, hopen] at hevents hnumbered
    exact current_ofIndex hevents hnumbered (ofIndex_of_openDirectory hopen).2

/-- **In the lifetime of a catalog** its readers are up to date. -/
theorem Current.changes (h : c.Current) (changes : List Change) :
    (changes.foldl Change.apply c).Current :=
  List.foldlRecOn changes Change.apply h fun _ hc change _ => hc.apply change

/-! ### What readers are told -/

/-- Two catalogs tell their readers the same. -/
structure SameAnswers (c c' : Catalog) : Prop where
  find_eq : ∀ u, c.find u = c'.find u
  list_eq : ∀ r, c.list r = c'.list r
  counts_eq : ∀ tags, c.countSeverities tags = c'.countSeverities tags
  worst_eq : ∀ tags, c.worstSeverities tags = c'.worstSeverities tags
  documents_eq : c.stats.documents = c'.stats.documents

section SameAnswers

variable {s t : Snapshot}

theorem documents_of_live (h : s.segments.map Segment.live = t.segments.map Segment.live) :
    s.documents = t.documents := by
  rw [Snapshot.documents, Snapshot.documents, List.flatMap_def, List.flatMap_def, h]

/-- What a query finds depends on the documents that count. -/
theorem run_of_live (h : s.segments.map Segment.live = t.segments.map Segment.live) (schema : Schema)
    (q : Query) : s.run schema q = t.run schema q := by
  -- the query is put to each segment by itself, among its documents that count
  have hrun : ∀ u : Snapshot, (u.segments.map fun seg => seg.live.filter fun d => q.selects schema d) =
      (u.segments.map Segment.live).map fun ds => ds.filter fun d => q.selects schema d := by
    intro u
    rw [List.map_map]
    rfl
  unfold Snapshot.run
  rw [hrun s, hrun t, h]

theorem canCollectSeverities_of_live (h : s.segments.map Segment.live = t.segments.map Segment.live)
    (schema : Schema) : s.canCollectSeverities schema = t.canCollectSeverities schema := by
  have hempty : s.segments.isEmpty = t.segments.isEmpty := by
    rw [← List.isEmpty_map (f := Segment.live), h, List.isEmpty_map]
  rw [Snapshot.canCollectSeverities, Snapshot.canCollectSeverities, hempty]

theorem reading_of_live {α : Type} {f : Snapshot → α}
    (hf : ∀ s t : Snapshot, s.segments.map Segment.live = t.segments.map Segment.live → f s = f t)
    (h : c.slot.current.segments.map Segment.live = c'.slot.current.segments.map Segment.live) :
    c.reading f = c'.reading f :=
  hf _ _ h

/-- Collecting by tag goes from one tag to the next. -/
theorem collectByTag_of_live {α : Type} {collect : Snapshot → Query → Option (Option α)}
    (hschema : c.index.schema = c'.index.schema)
    (h : c.slot.current.segments.map Segment.live = c'.slot.current.segments.map Segment.live)
    (hcollect : ∀ q (s t : Snapshot), s.segments.map Segment.live = t.segments.map Segment.live →
      collect s q = collect t q) (failure : String) (tags : List String) :
    c.collectByTag failure collect tags = c'.collectByTag failure collect tags := by
  induction tags with
  | nil => rfl
  | cons tag rest ih =>
    have hread : ∀ q, (c.reading fun s => collect s q) = c'.reading fun s => collect s q := by
      intro q
      exact reading_of_live (hcollect q) h
    simp only [collectByTag, hschema, hread, ih]

/-- **Where the same documents count, readers are told the same.** -/
theorem sameAnswers_of_live (hschema : c.index.schema = c'.index.schema) (hconfig : c.config = c'.config)
    (h : c.slot.current.segments.map Segment.live = c'.slot.current.segments.map Segment.live) :
    c.SameAnswers c' where
  find_eq := by
    intro u
    unfold find
    simp only [hschema]
    split
    · rfl
    · refine reading_of_live (fun s t hst => ?_) h
      simp only [documents_of_live hst]
  list_eq := by
    intro r
    unfold list
    simp only [hschema, hconfig]
    refine bind_congr fun q => reading_of_live (fun s t hst => ?_) h
    unfold page Snapshot.matching
    rw [documents_of_live hst]
  counts_eq := by
    intro tags
    unfold countSeverities
    simp only [hschema]
    refine collectByTag_of_live hschema h (fun q s t hst => ?_) _ _
    simp only [Snapshot.severityCounts?, run_of_live hst, canCollectSeverities_of_live hst]
  worst_eq := by
    intro tags
    unfold worstSeverities
    simp only [hschema]
    refine collectByTag_of_live hschema h (fun q s t hst => ?_) _ _
    simp only [Snapshot.worstSeverity?, run_of_live hst, canCollectSeverities_of_live hst]
  documents_eq := reading_of_live (fun s t hst => congrArg List.length (documents_of_live hst)) h

end SameAnswers

end Catalog

end EventCatalog
