import EventCatalog.Proofs.Refinement
import EventCatalog.Queue.CatalogFeed
import EventCatalog.Queue.Drain

/-!
# What a batch does to the catalog

A batch reads many rows of one event, and its first row decides (`Batch.decider`): what that row found in
the table is what the catalog holds of the event afterwards. All other events stay as they are. As a map,
the catalog goes from `m` to `Batch.applied b m`, of which `Batch.lookup_applied` is the reading, event by
event.

A feed is first told of all events of a batch: the changed ones are staged, the removed ones kept
(`CatalogFeed.loaded`). Then the last call commits the ones and removes the others, or just commits if there is
nothing to remove (`CatalogFeed.complete_loaded`, `Catalog.fed`). Nothing is left staged, so that the next batch
starts from a catalog on which both maps agree (`CatalogFeed.performAll_calls`). Over a connection without an
outage a drain therefore succeeds, and leaves the queue as it was (`Drain.run_ofTable`).
-/

namespace EventCatalog

/-- A row finds the event that its entry names, if it finds one. -/
def QueueRow.Keyed (r : QueueRow) : Prop := ∀ e, r.event = some e → e.uuid = r.entry.uuid

/-! ### Maps under many changes -/

/-- Events that are put into a map leave the others alone. -/
theorem lookup_foldl_insert_of_ne {events : List Event} {u : Uuid}
    (h : ∀ e ∈ events, e.uuid ≠ u) (m : EventMap) :
    (events.foldl (fun m e => m.insert e.uuid e) m).lookup u = m.lookup u := by
  induction events generalizing m with
  | nil => rfl
  | cons e rest ih =>
    rw [List.foldl_cons, ih fun f hf => h f (List.mem_cons_of_mem e hf)]
    exact Finmap.lookup_insert_of_ne _ (h e List.mem_cons_self).symm

/-- Of events with identifiers of their own, each is found afterwards. -/
theorem lookup_foldl_insert {events : List Event} (h : (events.map Event.uuid).Nodup) {e : Event}
    (he : e ∈ events) (m : EventMap) :
    (events.foldl (fun m e => m.insert e.uuid e) m).lookup e.uuid = some e := by
  induction events generalizing m with
  | nil => exact absurd he List.not_mem_nil
  | cons f rest ih =>
    rw [List.map_cons, List.nodup_cons] at h
    rw [List.foldl_cons]
    -- the later events have other identifiers, so they do not overwrite the first one
    rcases List.mem_cons.1 he with rfl | hrest
    · rw [lookup_foldl_insert_of_ne, Finmap.lookup_insert]
      intro g hg huuid
      exact h.1 (huuid ▸ List.mem_map_of_mem hg)
    · exact ih h.2 hrest _

/-- Events that are taken from a map are gone, and the others stay. -/
theorem lookup_foldl_erase (uuids : List Uuid) (m : EventMap) (u : Uuid) :
    (uuids.foldl (fun m v => m.erase v) m).lookup u = if u ∈ uuids then none else m.lookup u := by
  induction uuids generalizing m with
  | nil => rfl
  | cons v rest ih =>
    rw [List.foldl_cons, ih]
    -- the identifier may stand in the list twice, so the rest is looked at first
    by_cases hrest : u ∈ rest
    · rw [if_pos hrest, if_pos (List.mem_cons_of_mem v hrest)]
    · rw [if_neg hrest]
      by_cases hv : u = v
      -- it is taken by the first removal, and no later one brings it back
      · rw [hv, Finmap.lookup_erase, if_pos List.mem_cons_self]
      · rw [Finmap.lookup_erase_ne hv, if_neg]
        rw [List.mem_cons, not_or]
        exact ⟨hv, hrest⟩

/-! ### The row that decides -/

namespace Batch

/-- The row that decides what becomes of an event: the first that refers to it. -/
def decider (rows : List QueueRow) (u : Uuid) : Option QueueRow :=
  rows.find? fun r => r.entry.uuid == u

/-- The map of a catalog after it was fed with a batch. -/
def applied (b : Batch) (m : EventMap) : EventMap :=
  b.removed.foldl (fun m u => m.erase u) (b.changed.foldl (fun m e => m.insert e.uuid e) m)

variable {rows : List QueueRow} {u : Uuid}

/-- Dropping the rows that repeat an event does not change which rows decide. -/
theorem decider_firstRows (rows : List QueueRow) (u : Uuid) :
    decider (firstRows rows) u = decider rows u := by
  unfold decider
  induction rows with
  | nil => rfl
  | cons r rest ih =>
    rw [firstRows, List.find?_cons, List.find?_cons]
    cases hr : r.entry.uuid == u with
    | true => rfl
    | false =>
      -- of the other rows those of the event are not among the ones dropped
      dsimp only
      rw [List.find?_filter, ← ih]
      congr 1
      funext s
      rw [Bool.eq_iff_iff, decide_eq_true_iff, bne_iff_ne, beq_iff_eq]
      refine and_iff_right_of_imp ?_
      rintro hs
      rw [hs]
      exact (beq_eq_false_iff_ne.1 hr).symm

theorem mem_of_decider {r : QueueRow} (h : decider rows u = some r) :
    r ∈ rows ∧ r.entry.uuid = u := by
  unfold decider at h
  have huuid := List.find?_some h
  exact ⟨List.mem_of_find?_eq_some h, beq_iff_eq.1 huuid⟩

theorem mem_firstRows_of_decider {r : QueueRow} (h : decider rows u = some r) :
    r ∈ firstRows rows ∧ r.entry.uuid = u := by
  rw [← decider_firstRows] at h
  exact mem_of_decider h

theorem forall_ne_of_decider (h : decider rows u = none) : ∀ r ∈ rows, r.entry.uuid ≠ u := by
  intro r hr huuid
  exact List.find?_eq_none.1 h r hr (beq_iff_eq.2 huuid)

theorem mem_of_mem_firstRows {r : QueueRow} (h : r ∈ firstRows rows) : r ∈ rows := by
  induction rows with
  | nil => exact h
  | cons s rest ih =>
    rw [firstRows, List.mem_cons] at h
    rcases h with rfl | h
    · exact List.mem_cons_self
    · exact List.mem_cons_of_mem s (ih (List.mem_of_mem_filter h))

/-- No two first rows are about one event. -/
theorem eq_of_mem_firstRows {r s : QueueRow} (hr : r ∈ firstRows rows) (hs : s ∈ firstRows rows)
    (h : r.entry.uuid = s.entry.uuid) : r = s :=
  List.inj_on_of_nodup_map (firstRows_nodup rows) hr hs h

/-- The changed events of a batch have identifiers of their own. -/
theorem changed_nodup (hkeyed : ∀ r ∈ rows, r.Keyed) :
    ((ofRows rows).changed.map Event.uuid).Nodup := by
  have hsub : List.Sublist ((ofRows rows).changed.map Event.uuid)
      ((firstRows rows).map fun r => r.entry.uuid) := by
    have hfirst : ∀ r ∈ firstRows rows, r.Keyed := fun r hr => hkeyed r (mem_of_mem_firstRows hr)
    unfold ofRows
    dsimp only
    -- each changed event carries the identifier of its row
    generalize firstRows rows = first at hfirst
    induction first with
    | nil => exact List.Sublist.refl _
    | cons r rest ih =>
      have hrest := ih fun s hs => hfirst s (List.mem_cons_of_mem r hs)
      cases hevent : r.event with
      | none =>
        rw [List.filterMap_cons_none hevent, List.map_cons]
        exact hrest.cons _
      | some e =>
        rw [List.filterMap_cons_some hevent, List.map_cons, List.map_cons,
          hfirst r List.mem_cons_self e hevent]
        exact hrest.cons_cons _
  exact (firstRows_nodup rows).sublist hsub

theorem mem_removed_iff : u ∈ (ofRows rows).removed ↔
    ∃ r ∈ firstRows rows, r.event = none ∧ r.entry.uuid = u := by
  unfold ofRows
  simp only [List.mem_map, List.mem_filter, Option.isNone_iff_eq_none, and_assoc]

/-- **What a batch makes of an event** is what the row that decides has found, and without such a row the
event stays as it was. -/
theorem lookup_applied (hkeyed : ∀ r ∈ rows, r.Keyed) (m : EventMap) (u : Uuid) :
    ((ofRows rows).applied m).lookup u =
      match decider rows u with
      | some r => r.event
      | none => m.lookup u := by
  unfold applied
  rw [lookup_foldl_erase]
  -- the removals come last in the fold, so they are taken off first
  cases hdecider : decider rows u with
  | none =>
    have hne := forall_ne_of_decider hdecider
    rw [if_neg, lookup_foldl_insert_of_ne]
    · intro e he huuid
      obtain ⟨r, hr, hevent⟩ := List.mem_filterMap.1 he
      have hr := mem_of_mem_firstRows hr
      exact hne r hr ((hkeyed r hr e hevent).symm.trans huuid)
    · rw [mem_removed_iff]
      rintro ⟨r, hr, -, huuid⟩
      exact hne r (mem_of_mem_firstRows hr) huuid
  | some r =>
    obtain ⟨hfirst, huuid⟩ := mem_firstRows_of_decider hdecider
    cases hevent : r.event with
    -- the row found nothing: the event is removed, whatever was there
    | none =>
      rw [if_pos (mem_removed_iff.2 ⟨r, hfirst, hevent, huuid⟩)]
      exact hevent.symm
    | some e =>
      rw [if_neg]
      · have hchanged : e ∈ (ofRows rows).changed := List.mem_filterMap.2 ⟨r, hfirst, hevent⟩
        have hu : e.uuid = u := (hkeyed r (mem_of_mem_firstRows hfirst) e hevent).trans huuid
        rw [← hu, lookup_foldl_insert (changed_nodup hkeyed) hchanged]
        exact hevent.symm
      -- a removal of the same event would need a second first row of it
      · rw [mem_removed_iff]
        rintro ⟨s, hs, hnone, hsu⟩
        rw [← eq_of_mem_firstRows hfirst hs (huuid.trans hsu.symm), hevent] at hnone
        exact nomatch hnone

end Batch

/-! ### Following a batch through the feed -/

/-- Calls made in two goes. -/
theorem HandlerCall.performAll_append {η : Type} [BatchHandler η] {h h' : η} {xs : List HandlerCall}
    (hxs : performAll h xs = (.ok (), h')) (ys : List HandlerCall) :
    performAll h (xs ++ ys) = performAll h' ys := by
  induction xs generalizing h with
  | nil =>
    cases hxs
    rfl
  | cons call rest ih =>
    rw [performAll] at hxs
    rw [List.cons_append, performAll]
    split at hxs
    · next hcall => exact ih hxs
    · next hcall => exact nomatch (Prod.mk.inj hxs).1

/-- A catalog is fed with a batch: its changed events are staged, and committed with its removals. A commit with
removals merges the segments. -/
def Catalog.fed (c : Catalog) (now : Occasion) (b : Batch) : Catalog.Outcome Unit :=
  if b.removed.isEmpty then (c.stageAll b.changed).commit now false
  else (b.removed.foldl Catalog.stageRemove (c.stageAll b.changed)).commit now true

/-- A catalog that was fed with a batch holds what the batch makes of the map. -/
theorem Catalog.Tracks.fed {c : Catalog} {pending committed : EventMap} (h : c.Tracks pending committed)
    (now : Occasion) (b : Batch) :
    ∃ c', c.fed now b = (.ok (), c') ∧ c'.Tracks (b.applied pending) (b.applied pending) := by
  have hstaged := h.stageAll b.changed
  unfold Catalog.fed Batch.applied
  split
  · next hempty =>
    obtain ⟨hok, htracks⟩ := hstaged.commit now false
    rw [List.isEmpty_iff.1 hempty]
    exact ⟨_, Prod.ext hok rfl, htracks⟩
  · obtain ⟨hok, htracks⟩ := (hstaged.stageRemoveAll b.removed).commit now true
    exact ⟨_, Prod.ext hok rfl, htracks⟩

namespace CatalogFeed

open HandlerCall (performAll performAll_append)

/-- Changed events are staged, one after the other. -/
theorem performAll_handle (f : CatalogFeed) (events : List Event) :
    performAll f (events.map .handle) = (.ok (), { f with
      catalog := f.catalog.stageAll events
      tally := { f.tally with staged := f.tally.staged + events.length } }) := by
  induction events generalizing f with
  | nil => rfl
  | cons e rest ih =>
    rw [List.map_cons, performAll]
    change performAll _ _ = _
    rw [ih]
    simp only [Catalog.stageAll, List.foldl_cons, List.length_cons, Nat.add_assoc, Nat.add_comm 1]

/-- Removed events are kept for the end of the batch. -/
theorem performAll_drop (f : CatalogFeed) (uuids : List Uuid) :
    performAll f (uuids.map .drop) = (.ok (), { f with
      tally := { f.tally with pendingRemovals := f.tally.pendingRemovals ++ uuids } }) := by
  induction uuids generalizing f with
  | nil => simp only [List.map_nil, performAll, List.append_nil]
  | cons u rest ih =>
    rw [List.map_cons, performAll]
    change performAll _ _ = _
    rw [ih]
    simp only [List.append_assoc, List.singleton_append]

/-- Nothing is told of a batch without changes. -/
theorem performAll_prepare (f : CatalogFeed) (events : List Event) :
    performAll f (if events.isEmpty then [] else [.prepare events]) = (.ok (), f) := by
  split
  · rfl
  · rfl

/-- The feed once it was told of all events of a batch: the changed ones are staged, the removed ones kept. -/
def loaded (f : CatalogFeed) (b : Batch) : CatalogFeed where
  catalog := f.catalog.stageAll b.changed
  tally := { f.tally with
    staged := f.tally.staged + b.changed.length
    pendingRemovals := f.tally.pendingRemovals ++ b.removed }
  now := f.now

/-- **A batch that read rows** loads the feed, and what comes of it is up to the last call. -/
theorem performAll_loaded (f : CatalogFeed) {b : Batch} (hids : b.ids ≠ []) :
    performAll f b.calls = performAll (f.loaded b) [.complete] := by
  -- the changed ones are staged, the removed ones are not yet known
  let f₁ : CatalogFeed := { f with
    catalog := f.catalog.stageAll b.changed
    tally := { f.tally with staged := f.tally.staged + b.changed.length } }
  unfold Batch.calls
  rw [List.isEmpty_eq_false_iff.2 hids, List.append_assoc, List.append_assoc,
    performAll_append (performAll_prepare f b.changed), performAll_append (performAll_handle f b.changed),
    performAll_append (performAll_drop f₁ b.removed)]
  rfl

/-- Completing a batch feeds the catalog with it, if nothing was kept for removal before. -/
theorem complete_loaded {f : CatalogFeed} (hkept : f.tally.pendingRemovals = []) (b : Batch) :
    (f.loaded b).complete = match f.catalog.fed f.now b with
      | (.ok (), c) => (.ok (), { f.loaded b with catalog := c, tally := (f.loaded b).tally.completed })
      | (.error e, c) => (.error e.toService, { f.loaded b with catalog := c }) := by
  have hremoved : (f.loaded b).tally.pendingRemovals = b.removed := by
    rw [loaded, hkept, List.nil_append]
  have hfinish : (f.loaded b).finish = f.catalog.fed f.now b := by
    have hcatalog : (f.loaded b).catalog = f.catalog.stageAll b.changed := rfl
    have hnow : (f.loaded b).now = f.now := rfl
    rw [finish, hremoved, hcatalog, hnow, Catalog.fed]
    -- removing many counts what it removes, of which only the success is kept
    split
    · rfl
    · next hsome =>
      simp only [Catalog.deleteMany, if_neg hsome, Catalog.returning]
      rcases (b.removed.foldl Catalog.stageRemove (f.catalog.stageAll b.changed)).commit f.now true with
        ⟨_ | _, c⟩ <;> rfl
  rcases hfed : f.catalog.fed f.now b with ⟨_ | _, c⟩ <;> simp only [complete, hfinish, hfed]

/-- **A batch succeeds** and leaves nothing staged. The catalog holds afterwards what the batch makes of
the map. -/
theorem performAll_calls {f : CatalogFeed} {m : EventMap} (h : f.catalog.Tracks m m)
    (hkept : f.tally.pendingRemovals = []) (rows : List QueueRow) :
    ∃ f' : CatalogFeed, performAll f (Batch.ofRows rows).calls = (.ok (), f') ∧
      f'.catalog.Tracks ((Batch.ofRows rows).applied m) ((Batch.ofRows rows).applied m) ∧
      f'.tally.pendingRemovals = [] := by
  cases rows with
  | nil => exact ⟨f, rfl, h, hkept⟩
  | cons r rest =>
    generalize hbatch : Batch.ofRows (r :: rest) = b
    have hids : b.ids ≠ [] := by
      rw [← hbatch]
      exact List.cons_ne_nil _ _
    obtain ⟨c, hfed, htracks⟩ := h.fed f.now b
    refine ⟨{ f.loaded b with catalog := c, tally := (f.loaded b).tally.completed }, ?_, htracks, rfl⟩
    have hperform : BatchHandler.perform (f.loaded b) .complete = (f.loaded b).complete := rfl
    rw [performAll_loaded f hids, performAll, hperform, complete_loaded hkept, hfed]
    rfl

end CatalogFeed

/-- A drain that has read rows of a table. -/
def Drain.havingRead (d : Drain) (t : EventTable) (rows : List QueueRow) : Drain :=
  { d with store := .ofTable t, watermark := advance d.watermark rows }

/-- What a drain does where no call of the store fails: all depends on the calls of the batch. -/
theorem Drain.run_eq {η : Type} [BatchHandler η] {d : Drain} {t : EventTable}
    (hstore : d.store = .ofTable t) (h : η) (limit : Nat) (latest : Option Instant) :
    d.run h limit latest =
      match HandlerCall.performAll h (Batch.ofRows (t.fetch limit latest)).calls with
      | (.ok (), h') => (.ok ((t.fetch limit latest).map fun r => r.entry.id),
          (d.havingRead t (t.fetch limit latest)).publish t.pending limit, h')
      | (.error e, h') => (.error e, d.havingRead t (t.fetch limit latest), h') := by
  unfold run
  rw [hstore, Connection.fetch, Connection.request_ofTable]
  dsimp only
  rcases HandlerCall.performAll h (Batch.ofRows (t.fetch limit latest)).calls with ⟨_ | _, h'⟩
  · rfl
  · simp only [Connection.pending, Connection.request_ofTable]
    rfl

/-- **A drain succeeds** where no call of the store fails. It returns the numbers of the rows that it has
fetched, and leaves them in the queue. -/
theorem Drain.run_ofTable {d : Drain} {t : EventTable} (hstore : d.store = .ofTable t)
    {f : CatalogFeed} {m : EventMap} (h : f.catalog.Tracks m m)
    (hkept : f.tally.pendingRemovals = []) (limit : Nat) (latest : Option Instant) :
    ∃ (d' : Drain) (f' : CatalogFeed),
      d.run f limit latest = (.ok ((t.fetch limit latest).map fun r => r.entry.id), d', f') ∧
      d'.store = .ofTable t ∧
      f'.catalog.Tracks ((Batch.ofRows (t.fetch limit latest)).applied m)
        ((Batch.ofRows (t.fetch limit latest)).applied m) ∧
      f'.tally.pendingRemovals = [] := by
  obtain ⟨f', hcalls, htracks, hkept'⟩ :=
    CatalogFeed.performAll_calls h hkept (t.fetch limit latest)
  refine ⟨(d.havingRead t (t.fetch limit latest)).publish t.pending limit, f', ?_, rfl, htracks, hkept'⟩
  rw [run_eq hstore, hcalls]

end EventCatalog
