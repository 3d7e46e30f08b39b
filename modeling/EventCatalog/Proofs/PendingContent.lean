import EventCatalog.Proofs.Consolidation

/-!
# The pending content

What a commit will leave can be told from what readers see and from what is staged: every staged event takes
the place of those with its identifier (`Catalog.pending`). So under an identifier there is the event that
was staged last, or what readers see if none was (`Catalog.mem_pending`). In a steady catalog the events of
the outlook are just these (`Catalog.Steady.overlaid`).

Staging an event does to the outlook what it does to the pending content. Between the steps of one change
that need not be so: an event may be gone from the outlook while readers still see it. The commit that ends
the change makes the events of the outlook the visible ones, with nothing staged, so then it holds again.
-/

namespace EventCatalog

/-- What a commit will leave had been stored or staged. -/
theorem Writer.mem_outlook {ix : Index} {w : Writer} {d : Document} (h : d ∈ outlook ix w) :
    d ∈ ix.documents ∨ ∃ a ∈ w.additions, a.document = d := by
  rcases List.mem_append.1 h with h | h
  · obtain ⟨s, hs, hd⟩ := List.mem_flatMap.1 h
    exact .inl (List.mem_flatMap.2 ⟨s, hs, List.mem_of_mem_filter hd⟩)
  · obtain ⟨a, ha, hd⟩ := List.mem_filterMap.1 h
    split at hd
    -- a staged document counts unless a later removal selects it
    · exact .inr ⟨a, ha, Option.some.inj hd⟩
    · exact absurd hd.symm (Option.some_ne_none d)

namespace Event

/-- The events with one more, in place of those with its identifier. -/
def replace (events : List Event) (e : Event) : List Event :=
  events.filter (fun f => !(f.uuid == e.uuid)) ++ [e]

theorem perm_replace {events events' : List Event} (h : events.Perm events') (e : Event) :
    (replace events e).Perm (replace events' e) := (h.filter _).append_right [e]

end Event

namespace Catalog

variable {c : Catalog} {k : Nat}

/-- The events that are staged, in their order. -/
def stagedEvents (c : Catalog) : List Event := Document.events (c.writer.additions.map Addition.document)

/-- What readers see, with every staged event in place of those with its identifier. -/
def pending (c : Catalog) : List Event := c.stagedEvents.foldl Event.replace c.visible

/-- The events of the outlook, with the first removals forgotten. -/
def outlook (k : Nat) (c : Catalog) : List Event :=
  Document.events (Writer.outlook (c.index.forget k) (c.writer.forget k))

theorem OfEvents.outlook_eq (h : c.OfEvents) (k : Nat) :
    Writer.outlook (c.index.forget k) (c.writer.forget k) = (c.outlook k).map .ofEvent := by
  -- all that was stored or staged are documents of events
  refine Document.eq_map_ofEvent fun d hd => ?_
  rcases Writer.mem_outlook hd with hstored | ⟨a, ha, rfl⟩
  · rw [Index.documents_forget] at hstored
    exact h.stored.live d hstored
  · exact h.staged a ha

/-- **A removal takes from the outlook** what it selects. -/
theorem Regular.outlook_remove (h : c.Regular k) (hevents : c.OfEvents) (q : Query) :
    outlook k { c with writer := c.writer.remove q } =
      (c.outlook k).filter fun e => !q.selects .events (.ofEvent e) := by
  have hfiltered : Writer.outlook (c.index.forget k) ((c.writer.remove q).forget k) =
      ((c.outlook k).filter fun e => !q.selects .events (.ofEvent e)).map .ofEvent := by
    -- forgetting old removals does not touch the new one
    rw [Writer.forget_remove h.passed.le_length, Writer.outlook_remove h.orderly, hevents.outlook_eq,
      List.filter_map]
    exact congrArg (fun schema => List.map Document.ofEvent
      (List.filter (fun e => !q.selects schema (.ofEvent e)) _)) hevents.schema_eq
  change Document.events (Writer.outlook (c.index.forget k) ((c.writer.remove q).forget k)) = _
  rw [hfiltered, Document.events_map_ofEvent]

theorem Regular.outlook_stageRemove (h : c.Regular k) (hevents : c.OfEvents) (u : Uuid) :
    (c.stageRemove u).outlook k = (c.outlook k).filter fun e => !(e.uuid == u) := by
  have hrunnable : (keyQuery u).isRunnable c.index.schema = true := by
    rw [hevents.schema_eq]
    exact isRunnable_keyQuery u
  have hremoved := h.outlook_remove hevents (keyQuery u)
  simp only [selects_keyQuery] at hremoved
  rw [Catalog.stageRemove, if_pos hrunnable]
  exact hremoved

/-- **Staging an event** puts it into the outlook in place of those with its identifier. -/
theorem Regular.outlook_stage (h : c.Regular k) (hevents : c.OfEvents) (e : Event) :
    (c.stage e).outlook k = Event.replace (c.outlook k) e := by
  have hr := h.stageRemove e.uuid
  have houtlook : Writer.outlook ((c.stage e).index.forget k) ((c.stage e).writer.forget k) =
      ((c.stageRemove e.uuid).outlook k ++ [e]).map .ofEvent := by
    change Writer.outlook ((c.stageRemove e.uuid).index.forget k)
      (((c.stageRemove e.uuid).writer.add (.ofEvent e)).forget k) = _
    rw [Writer.forget_add hr.passed.le_seen hr.passed.le_start, Writer.outlook_add hr.orderly,
      (hevents.stageRemove e.uuid).outlook_eq, List.map_append]
    rfl
  rw [outlook, houtlook, Document.events_map_ofEvent, h.outlook_stageRemove hevents, Event.replace]

/-- **A commit shows the events of the outlook.** -/
theorem Regular.visible_commit (h : c.Regular k) (hevents : c.OfEvents) (now : Instant) (force : Bool) :
    (c.commit now force).2.visible.Perm (c.outlook k) := by
  obtain ⟨-, -, hperm, -⟩ := h.commit hevents.canCommit now force
  rw [hevents.outlook_eq] at hperm
  exact (hevents.commit now force).holdsEvents.visible_perm hperm

/-- Once nothing is left to be done, the outlook is what readers see. -/
theorem Regular.outlook_eq_visible (h : c.Regular k) (hadditions : c.writer.additions = [])
    (hreached : ∀ s ∈ c.index.segments, s.reached = c.writer.removals.length) :
    c.outlook k = c.visible := by
  have hsettled : Writer.Settled (c.index.forget k) (c.writer.forget k) := by
    refine ⟨hadditions, fun s hs => ?_⟩
    obtain ⟨u, hu, rfl⟩ := List.mem_map.1 hs
    change u.reached - k = (c.writer.removals.drop k).length
    rw [hreached u hu, List.length_drop]
  -- nothing is staged and nothing to be carried out, so the outlook is what is stored, and readers see it
  rw [outlook, hsettled.outlook, Index.documents_forget, ← h.shows.documents]
  rfl

/-! ### Steady catalogs -/

/-- A commit will leave the pending content. -/
structure Overlaid (k : Nat) (c : Catalog) : Prop where
  rested : c.Rested k
  outlook_perm : (c.outlook k).Perm c.pending

theorem pending_of_additions_eq_nil (h : c.writer.additions = []) : c.pending = c.visible := by
  rw [pending, stagedEvents, h]
  rfl

theorem Rested.overlaid_of_settled (h : c.Rested k) (hadditions : c.writer.additions = [])
    (hreached : ∀ s ∈ c.index.segments, s.reached = c.writer.removals.length) : c.Overlaid k := by
  refine ⟨h, ?_⟩
  rw [h.regular.outlook_eq_visible hadditions hreached, pending_of_additions_eq_nil hadditions]

theorem visible_stage (c : Catalog) (e : Event) : (c.stage e).visible = c.visible := by
  unfold stage stageRemove
  split <;> rfl

theorem Regular.stagedEvents_stage (h : c.Regular k) (e : Event) :
    (c.stage e).stagedEvents = c.stagedEvents ++ [e] := by
  have hadditions : (c.stage e).writer.additions =
      c.writer.additions ++ [⟨(c.stageRemove e.uuid).writer.next, .ofEvent e⟩] := by
    obtain ⟨-, hadd, -⟩ := Writer.add_spec (w := (c.stageRemove e.uuid).writer)
      (h.stageRemove e.uuid).orderly.running (.ofEvent e)
    refine hadd.trans (congrArg (· ++ _) ?_)
    -- the removal that comes with the event stages nothing
    unfold Catalog.stageRemove
    split <;> rfl
  rw [stagedEvents, hadditions, List.map_append, Document.events, List.filterMap_append]
  refine congrArg (c.stagedEvents ++ ·) ?_
  exact Document.events_map_ofEvent [e]

theorem Overlaid.stage (h : c.Overlaid k) (hevents : c.OfEvents) (e : Event) : (c.stage e).Overlaid k where
  rested := h.rested.stage e
  outlook_perm := by
    rw [h.rested.regular.outlook_stage hevents, pending, h.rested.regular.stagedEvents_stage, visible_stage,
      List.foldl_append]
    exact Event.perm_replace h.outlook_perm e

theorem Overlaid.lease (h : c.Overlaid k) {slot : SnapshotSlot}
    (hslot : slot.current.segments = c.slot.current.segments) : Overlaid k { c with slot := slot } where
  rested := h.rested.lease hslot
  outlook_perm := by
    have hvisible : ({ c with slot := slot } : Catalog).visible = c.visible := by
      rw [visible, Snapshot.documents, hslot]
      rfl
    rw [pending, hvisible]
    exact h.outlook_perm

/-- **A commit** makes what was pending visible, and leaves nothing else pending. -/
theorem Regular.overlaid_commit (h : c.Regular k) (hevents : c.OfEvents) (now : Instant) (force : Bool) :
    (c.commit now force).2.Overlaid k :=
  (h.rested_commit hevents.canCommit now force).overlaid_of_settled (additions_commit c now force)
    (h.reached_commit hevents.canCommit now force)

theorem kept_overlaid : Kept (fun c => c.OfEvents ∧ ∃ k, c.Overlaid k)
    (fun c => c.OfEvents ∧ ∃ k, c.Regular k) where
  relax := fun ⟨hevents, k, h⟩ => ⟨hevents, k, h.rested.regular⟩
  stage := fun e ⟨hevents, k, h⟩ => ⟨hevents.stage e, k, h.stage hevents e⟩
  stageRemove := kept_rested.stageRemove
  remove := kept_rested.remove
  lease := fun slot hslot ⟨hevents, k, h⟩ => ⟨kept_ofEvents.lease slot hslot hevents, k, h.lease hslot⟩
  commit := fun now force ⟨hevents, k, h⟩ =>
    ⟨hevents.commit now force, k, h.overlaid_commit hevents now force⟩

/-- A catalog that has just been opened shows all that is pending. -/
theorem overlaid_ofIndex {name : String} {config : SearchConfig} {ix : Index} {locked : Bool}
    (hn : c.Numbered) (h : ofIndex name config ix locked = .ok c) : c.Overlaid 0 := by
  have hrested := rested_ofIndex hn h
  obtain rfl := eq_of_ofIndex h
  refine hrested.overlaid_of_settled rfl fun s hs => ?_
  obtain ⟨u, -, rfl⟩ := Index.mem_rewound hs
  rfl

/-- **In a steady catalog** a commit will leave the pending content. -/
theorem Steady.overlaid (h : c.Steady) : ∃ k, c.Overlaid k := by
  induction h with
  | @fresh c name config h =>
    obtain ⟨-, locked, hix⟩ := ofIndex_of_fresh h
    exact ⟨0, overlaid_ofIndex (numbered_of_fresh h) hix⟩
  | @reopened c c' h hopen =>
    have hn : c'.Numbered := (Steady.reopened h hopen).reachable.numbered
    exact ⟨0, overlaid_ofIndex hn (ofIndex_of_openDirectory hopen).2⟩
  | @changed c change h hlingering ih =>
    obtain ⟨k, hoverlaid⟩ := ih
    have hreachable := h.reachable
    refine (kept_overlaid.apply ⟨hreachable.ofEvents, k, hoverlaid⟩ change ?_ ?_).2
    -- clearing is only steady where nothing is left of the removals before it
    · intro now hclear
      have hrested := hoverlaid.rested.clear hreachable.ofEvents hreachable.numbered (hlingering now hclear) now
      exact ⟨hreachable.ofEvents.apply (.clear now), _,
        hrested.overlaid_of_settled (additions_commit c.emptied now true) (h.reached_clear now)⟩
    · intro c' _ hopen
      have hreopened := (Steady.reopened hreachable hopen).reachable
      exact ⟨hreopened.ofEvents, 0, overlaid_ofIndex hreopened.numbered (ofIndex_of_openDirectory hopen).2⟩

end Catalog

end EventCatalog
