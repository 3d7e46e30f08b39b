import EventCatalog.Proofs.Draining
import EventCatalog.Proofs.HandlerReuse
import EventCatalog.Proofs.Tables
import EventCatalog.Queue.Indexer

/-!
# Indexing until nothing is left

Indexing fully repeats cycles until one of them deals with less than a full batch. `Indexer.Loops` is that loop, with
what each of its cycles reports; it knows no bound on the number of cycles, and where it ends the bounded one ends in
the same way (`Indexer.Loops.indexCycles_eq`).

That it ends rests on the deletions: a full batch takes entries out of the queue, by their numbers, and
so fewer are due for the next cycle (`EventTable.due_fetched`). While the store answers and the catalog takes events,
no cycle fails (`Indexer.Serves.cycle`), so the cycles go through what is due in slices (`Indexer.exists_loops`), and
a full last slice is followed by a cycle that reads nothing. Of a table of recent events all entries are due, and the
queue is empty afterwards (`Indexer.indexFully_empties`).
-/

namespace EventCatalog

/-! ### Slices of a list -/

/-- The elements of a slice of a list, if all slices have one length. -/
def slice {α : Type} (l : List α) (limit k : Nat) : List α := (l.drop (k * limit)).take limit

theorem flatMap_slice {α : Type} (l : List α) (limit m : Nat) :
    ((List.range m).flatMap fun k => slice l limit k) = l.take (m * limit) := by
  induction m with
  | zero => simp
  | succ m ih =>
    calc ((List.range (m + 1)).flatMap fun k => slice l limit k)
      _ = l.take (m * limit) ++ slice l limit m := by
        rw [List.range_succ, List.flatMap_append, ih, List.flatMap_singleton]
      _ = l.take ((m + 1) * limit) := by
        rw [slice, Nat.succ_mul, List.take_add]

/-- The slices behind the first one are those of what is behind it. -/
theorem slice_succ {α : Type} (l : List α) (limit k : Nat) :
    slice l limit (k + 1) = slice (l.drop limit) limit k := by
  rw [slice, slice, List.drop_drop, Nat.succ_mul, Nat.add_comm]

/-- So many slices make up the whole list. -/
theorem flatMap_slice_eq_self {α : Type} (l : List α) {limit : Nat} (hlimit : 1 ≤ limit) :
    ((List.range (l.length / limit + 1)).flatMap fun k => slice l limit k) = l := by
  have hall : l.length ≤ (l.length / limit + 1) * limit := by
    rw [Nat.mul_comm]
    exact Nat.le_of_lt (Nat.lt_mul_div_succ l.length hlimit)
  rw [flatMap_slice, List.take_of_length_le hall]

/-- There is a catalog that takes events. -/
theorem Catalog.exists_takesEvents : ∃ c, Catalog.create "events" .default = .ok c ∧ c.TakesEvents := by
  obtain ⟨c, hc⟩ : ∃ c, Catalog.create "events" .default = .ok c := ⟨_, rfl⟩
  exact ⟨c, hc, (Catalog.ofEvents_of_fresh (.inl hc)).takesEvents⟩

namespace Indexer

/-! ### One cycle -/

/-- What a cycle reports: the numbers of the entries that it has read, how many it has deleted, and what its handler
has done. -/
structure Cycle where
  ids : List Int
  deleted : Nat
  tally : FeedTally
deriving DecidableEq, Repr

/-- The report of a cycle that reads and deletes rows. -/
def Cycle.ofRows (rows : List QueueRow) : Cycle where
  ids := rows.map fun r => r.entry.id
  deleted := rows.length
  tally := .rested (Batch.ofRows rows).changed.length (Batch.ofRows rows).removed.length

/-- A cycle with its report. -/
def cycle (ix : Indexer) (clock : Clock) : Except ServiceError Cycle × Indexer :=
  let feed : CatalogFeed := ⟨ix.catalog, .zero, clock.now⟩
  match ix.drain.run feed ix.config.batchLimit (ix.latest clock.now) with
  | (.error e, d, feed) => (.error e, { ix with drain := d, catalog := feed.catalog })
  | (.ok ids, d, feed) =>
    match d.deleteEntries ids with
    | (.error e, d) => (.error e, { ix with drain := d, catalog := feed.catalog })
    | (.ok deleted, d) => (.ok ⟨ids, deleted, feed.tally⟩,
        { ix with drain := d, catalog := feed.catalog }.recordCycle clock ids.length feed.tally)

/-- Of the report of a cycle, indexing once keeps the number of entries. -/
theorem indexOnce_eq (ix : Indexer) (clock : Clock) :
    ix.indexOnce clock = ((ix.cycle clock).1.map fun r => r.ids.length, (ix.cycle clock).2) := by
  unfold indexOnce cycle
  dsimp only
  rcases ix.drain.run (⟨ix.catalog, .zero, clock.now⟩ : CatalogFeed) ix.config.batchLimit (ix.latest clock.now) with
    ⟨_ | ids, d, feed⟩
  · rfl
  · dsimp only
    rcases d.deleteEntries ids with ⟨_ | deleted, d⟩ <;> rfl

/-- A cycle keeps the configuration. -/
theorem config_cycle (ix : Indexer) (clock : Clock) : (ix.cycle clock).2.config = ix.config := by
  unfold cycle
  dsimp only
  split
  · rfl
  · split <;> rfl

/-- An indexer whose calls of the store do not fail, on a catalog that takes events: the table, the size of a full
batch, and the time up to which its cycles read. -/
structure Serves (clock : Clock) (limit : Nat) (latest : Option Instant) (ix : Indexer) (t : EventTable) : Prop where
  store_eq : ix.drain.store = .ofTable t
  limit_eq : ix.config.batchLimit = limit
  latest_eq : ix.latest clock.now = latest
  nodup : t.queuedIds.Nodup
  takes : ix.catalog.TakesEvents

variable {clock : Clock} {limit : Nat} {latest : Option Instant} {ix : Indexer} {t : EventTable}

/-- **A cycle succeeds.** It reports the rows that it fetches, and deletes them. -/
theorem Serves.cycle (h : Serves clock limit latest ix t) :
    ∃ ix', ix.cycle clock = (.ok (.ofRows (t.fetch limit latest)), ix') ∧
      Serves clock limit latest ix' (t.fetched limit latest) := by
  -- each cycle has a handler of its own, whose tally starts at zero
  obtain ⟨c, hc, hcalls⟩ := CatalogFeed.performAll_ofRows h.takes 0 0 clock.now (t.fetch limit latest)
  have hzero : FeedTally.zero = .rested 0 0 := rfl
  have hrun := Drain.run_eq h.store_eq (⟨ix.catalog, .zero, clock.now⟩ : CatalogFeed) limit latest
  rw [hzero, hcalls, Nat.zero_add, Nat.zero_add] at hrun
  -- the drain once the length of the queue is known, and once the rows are deleted
  let d := (ix.drain.havingRead t (t.fetch limit latest)).publish t.pending limit
  have hstore : d.store = .ofTable t := rfl
  have hdelete := Drain.deleteEntries_ofTable hstore ((t.fetch limit latest).map fun r => r.entry.id)
  rw [EventTable.deleteEntries_fetch h.nodup] at hdelete
  refine ⟨Indexer.recordCycle { ix with drain := d.withTable (t.fetched limit latest), catalog := c } clock
    (t.fetch limit latest).length
    (.rested (Batch.ofRows (t.fetch limit latest)).changed.length
      (Batch.ofRows (t.fetch limit latest)).removed.length), ?_, ?_⟩
  · unfold Indexer.cycle
    rw [h.limit_eq, h.latest_eq, hzero]
    dsimp only
    rw [hrun]
    dsimp only
    rw [hdelete]
    simp only [List.length_map]
    rfl
  · refine ⟨Drain.store_withTable hstore _, h.limit_eq, ?_, EventTable.nodup_fetched h.nodup, hc⟩
    -- the time up to which is read depends on the kind of the table only, and that stays
    have hkind : ix.drain.table.isArchive = (t.fetched limit latest).isArchive := by
      rw [Drain.table, h.store_eq]
      rfl
    rw [← h.latest_eq, Indexer.latest, Indexer.latest, hkind, Drain.table]
    change (if (d.withTable _).store.table.isArchive then _ else _) = _
    rw [Drain.store_withTable hstore]
    rfl

/-! ### Many cycles -/

/-- **The loop of indexing fully**, where no cycle fails: cycles with their reports, up to the first that deals with
less than a full batch. -/
inductive Loops (clock : Clock) : Indexer → List Cycle → Indexer → Prop where
  | last {ix ix' : Indexer} {r : Cycle} (once : ix.cycle clock = (.ok r, ix'))
      (less : r.ids.length < ix.config.batchLimit) : Loops clock ix [r] ix'
  | next {ix ix₁ ix' : Indexer} {r : Cycle} {rest : List Cycle} (once : ix.cycle clock = (.ok r, ix₁))
      (full : ix.config.batchLimit ≤ r.ids.length) (others : Loops clock ix₁ rest ix') :
      Loops clock ix (r :: rest) ix'

/-- Where the loop ends, it ends within any bound that allows its cycles, with the number of all entries. -/
theorem Loops.indexCycles_eq {ix' : Indexer} {reports : List Cycle} (h : Loops clock ix reports ix') {bound : Nat}
    (hbound : reports.length ≤ bound) (total : Nat) :
    indexCycles clock bound total ix = (.ok (total + (reports.map fun r => r.ids.length).sum), ix') := by
  -- on the cycles of the loop; there is one at least, so the bound is not zero
  induction h generalizing bound total with
  | @last ix ix' r once less =>
    obtain ⟨bound, rfl⟩ := Nat.exists_eq_add_of_le' hbound
    have hconfig : ix'.config = ix.config := by rw [← ix.config_cycle clock, once]
    rw [List.length_singleton, indexCycles, indexOnce_eq, once]
    simp only [Except.map, hconfig, if_pos less, List.map_singleton, List.sum_singleton]
  | @next ix ix₁ ix' r rest once full others ih =>
    obtain ⟨bound, rfl⟩ := Nat.exists_eq_add_of_le' (Nat.le_trans (Nat.succ_le_succ (Nat.zero_le _)) hbound)
    have hconfig : ix₁.config = ix.config := by rw [← ix.config_cycle clock, once]
    rw [indexCycles, indexOnce_eq, once]
    simp only [Except.map, hconfig, if_neg (Nat.not_lt.2 full), ih (Nat.le_of_succ_le_succ hbound), List.map_cons,
      List.sum_cons, Nat.add_assoc]

/-- Indexing fully goes through the loop, if it has no more cycles than the table has entries, and one. -/
theorem Loops.indexFully_eq {ix' : Indexer} {reports : List Cycle} (h : Loops clock ix reports ix')
    (hcycles : reports.length ≤ ix.drain.table.pending + 1) :
    ix.indexFully clock = (.ok (reports.map fun r => r.ids.length).sum, ix') := by
  rw [indexFully, h.indexCycles_eq hcycles, Nat.zero_add]

/-- **The loop ends.** It goes through the entries that are due in slices, the last of which is less than a full batch
and may be empty, and leaves those that are late. The induction is on the number of entries that are due. -/
theorem exists_loops (hlimit : 1 ≤ limit) (h : Serves clock limit latest ix t) :
    ∃ ix', Loops clock ix
        ((List.range ((t.due latest).length / limit + 1)).map fun k =>
          .ofRows (t.rows (slice (t.due latest) limit k))) ix' ∧
      ix'.drain.store = .ofTable { t with queue := t.late latest } := by
  induction hn : (t.due latest).length using Nat.strong_induction_on generalizing ix t with
  | _ n ih =>
    obtain ⟨ix₁, honce, h₁⟩ := h.cycle
    -- the first cycle reads the first slice
    have hfirst : t.fetch limit latest = t.rows (slice (t.due latest) limit 0) := by
      rw [EventTable.fetch_eq_rows, slice, Nat.zero_mul, List.drop_zero]
    have hread : (Cycle.ofRows (t.fetch limit latest)).ids.length = min limit n := by
      rw [← hn, ← List.length_take]
      exact (List.length_map _).trans (List.length_map _)
    by_cases hfull : limit ≤ n
    -- a full batch: fewer entries are due for the cycles after it
    · have hdue : (t.fetched limit latest).due latest = (t.due latest).drop limit := EventTable.due_fetched h.nodup
      have hless : ((t.fetched limit latest).due latest).length = n - limit := by
        rw [hdue, List.length_drop, hn]
      obtain ⟨ix', hloops, hstore⟩ := ih (n - limit) (by omega) h₁ hless
      refine ⟨ix', ?_, ?_⟩
      · have hcycles : n / limit = (n - limit) / limit + 1 := Nat.div_eq_sub_div hlimit hfull
        rw [hcycles, List.range_succ_eq_map, List.map_cons, List.map_map, ← hfirst]
        refine .next honce (by rw [h.limit_eq, hread, Nat.min_eq_left hfull]) ?_
        -- its slices of what is left are those behind the first slice
        rw [hdue] at hloops
        convert hloops using 3 with k
        rw [Function.comp_apply, slice_succ]
        rfl
      · rw [hstore, EventTable.late_fetched h.nodup]
        rfl
    -- less than a full batch: this cycle was the last one, and nothing is left that is due
    · have hlast : n / limit = 0 := Nat.div_eq_of_lt (Nat.lt_of_not_le hfull)
      refine ⟨ix₁, ?_, ?_⟩
      · rw [hlast, Nat.zero_add, List.range_one, List.map_singleton, ← hfirst]
        exact .last honce (by rw [h.limit_eq, hread]; omega)
      · rw [h₁.store_eq, EventTable.fetched_of_le h.nodup (by omega)]

/-- **Indexing fully ends**, where no cycle fails. It has read the entries that are due, in their order, and deleted as
many as it has read. -/
theorem exists_indexFully (hlimit : 1 ≤ limit) (h : Serves clock limit latest ix t) :
    ∃ (reports : List Cycle) (ix' : Indexer),
      Loops clock ix reports ix' ∧
      ix.indexFully clock = (.ok (t.due latest).length, ix') ∧
      ix'.drain.store = .ofTable { t with queue := t.late latest } ∧
      reports.flatMap Cycle.ids = (t.due latest).map QueueEntry.id ∧
      ∀ r ∈ reports, r.deleted = r.ids.length := by
  obtain ⟨ix', hloops, hstore⟩ := exists_loops hlimit h
  let cycles := (t.due latest).length / limit + 1
  let reports := (List.range cycles).map fun k => Cycle.ofRows (t.rows (slice (t.due latest) limit k))
  have hids : reports.flatMap Cycle.ids = (t.due latest).map QueueEntry.id := calc
    reports.flatMap Cycle.ids
    _ = (List.range cycles).flatMap fun k => (slice (t.due latest) limit k).map QueueEntry.id := by
      rw [List.flatMap_map]
      exact List.flatMap_congr fun k _ => t.ids_rows _
    _ = (t.due latest).map QueueEntry.id := by
      rw [← List.map_flatMap, flatMap_slice_eq_self _ hlimit]
  have htotal : (reports.map fun r => r.ids.length).sum = (t.due latest).length := by
    rw [← List.length_flatMap, hids, List.length_map]
  have hcycles : reports.length ≤ ix.drain.table.pending + 1 := by
    have htable : ix.drain.table = t := congrArg Connection.table h.store_eq
    rw [List.length_map, List.length_range, htable]
    exact Nat.succ_le_succ (Nat.le_trans (Nat.div_le_self _ _) (List.length_filter_le _ _))
  refine ⟨reports, ix', hloops, ?_, hstore, hids, fun r hr => ?_⟩
  · rw [hloops.indexFully_eq hcycles, htotal]
  · obtain ⟨k, -, rfl⟩ := List.mem_map.1 hr
    exact (List.length_map _).symm

/-- **Indexing fully empties the queue.** Of a table of recent events whose calls do not fail, with any queue, and a
catalog that takes events, indexing fully deals with all entries. The loop ends after as many cycles as there are full
batches, and one more. Each cycle reads the entries of its slice of the queue and deletes as many as it has read, so
each entry is read and deleted once; and the events that the cycles have staged and removed are as many as each slice
is about, together. -/
theorem indexFully_empties {ix : Indexer} {t : EventTable} (hstore : ix.drain.store = .ofTable t)
    (hrecent : t.isArchive = false) (hnodup : t.queuedIds.Nodup) (hlimit : 1 ≤ ix.config.batchLimit)
    (hcatalog : ix.catalog.TakesEvents) (clock : Clock) :
    let slices := (List.range (t.pending / ix.config.batchLimit + 1)).map (slice t.queue ix.config.batchLimit)
    ∃ (reports : List Cycle) (ix' : Indexer),
      Loops clock ix reports ix' ∧
      ix.indexFully clock = (.ok t.pending, ix') ∧
      reports.length = t.pending / ix.config.batchLimit + 1 ∧
      ix'.drain.store = .ofTable { t with queue := [] } ∧
      reports.map Cycle.ids = slices.map (List.map QueueEntry.id) ∧
      reports.flatMap Cycle.ids = t.queuedIds ∧
      (∀ r ∈ reports, r.deleted = r.ids.length) ∧
      (reports.map fun r => r.tally.indexedTotal + r.tally.deletedTotal).sum =
        (slices.map fun entries => (entries.map QueueEntry.uuid).dedup.length).sum := by
  intro slices
  have htable : ix.drain.table = t := by
    rw [Drain.table, hstore]
    rfl
  -- entries of recent events do not wait, so all are due
  have hlatest : ix.latest clock.now = none := by
    rw [Indexer.latest, htable, hrecent]
    rfl
  have hlate : t.late none = [] := List.filter_eq_nil_iff.2 fun _ _ => by simp [EventTable.isDue]
  obtain ⟨ix', hloops, hstore'⟩ := exists_loops hlimit ⟨hstore, rfl, hlatest, hnodup, hcatalog⟩
  rw [t.due_none] at hloops
  rw [hlate] at hstore'
  -- what each cycle reports, by its slice
  let reports := slices.map fun entries => Cycle.ofRows (t.rows entries)
  have hreports : Loops clock ix reports ix' := by
    change Loops clock ix (((List.range _).map _).map _) ix'
    rw [List.map_map]
    exact hloops
  have hids : reports.map Cycle.ids = slices.map (List.map QueueEntry.id) := by
    rw [List.map_map]
    exact List.map_congr_left fun entries _ => t.ids_rows entries
  have hslices : slices.flatten = t.queue := flatMap_slice_eq_self t.queue hlimit
  have hall : reports.flatMap Cycle.ids = t.queuedIds := calc
    reports.flatMap Cycle.ids
    _ = (slices.map (List.map QueueEntry.id)).flatten := by rw [List.flatMap_def, hids]
    _ = slices.flatten.map QueueEntry.id := List.map_flatten.symm
    _ = t.queuedIds := by rw [hslices, EventTable.queuedIds]
  have hlength : reports.length = t.pending / ix.config.batchLimit + 1 := by
    rw [List.length_map, List.length_map, List.length_range]
  refine ⟨reports, ix', hreports, ?_, hlength, hstore', hids, hall, ?_, ?_⟩
  · have hcycles : reports.length ≤ ix.drain.table.pending + 1 := by
      rw [hlength, htable]
      exact Nat.succ_le_succ (Nat.div_le_self _ _)
    have htotal : (reports.map fun r => r.ids.length).sum = t.pending := calc
      (reports.map fun r => r.ids.length).sum
      _ = (reports.flatMap Cycle.ids).length := List.length_flatMap.symm
      _ = t.queuedIds.length := by rw [hall]
      _ = t.pending := List.length_map _
    rw [hreports.indexFully_eq hcycles, htotal]
  · intro r hr
    obtain ⟨entries, -, rfl⟩ := List.mem_map.1 hr
    exact (List.length_map _).symm
  -- slice by slice: a batch changes or removes each event that its rows are about, once
  · rw [List.map_map]
    refine congrArg List.sum (List.map_congr_left fun entries _ => ?_)
    rw [← t.uuids_rows]
    exact Batch.length_changed_add_removed EventTable.keyed_of_mem_rows

/-- The table of an event that was changed three times, and of another that was removed. -/
def tableOfFour : EventTable :=
  let e : Event := .raise (.ofNat 1) .epoch "host" "/Status" "down" .warning
  let t := ((EventTable.empty EventTable.summaryName false).upsert e).2
  (((t.upsert e).2.upsert e).2.enqueue (.ofNat 2) .epoch none).2

/-- Two full batches are followed by a cycle that reads nothing. The first batch is about one event. -/
theorem indexFully_empties_four :
    ∃ c, Catalog.create "events" .default = .ok c ∧
      let ix : Indexer :=
        ⟨.ofStore (.ofTable tableOfFour) [], c, { IndexerConfig.default with batchLimit := 2 }, none⟩
      ∃ (reports : List Cycle) (ix' : Indexer),
        Loops ⟨.epoch, 0⟩ ix reports ix' ∧ ix.indexFully ⟨.epoch, 0⟩ = (.ok 4, ix') ∧
        reports.map Cycle.ids = [[1, 2], [3, 4], []] ∧
        (reports.map fun r => r.tally.indexedTotal + r.tally.deletedTotal).sum = 3 := by
  obtain ⟨c, hc⟩ : ∃ c, Catalog.create "events" .default = .ok c := ⟨_, rfl⟩
  have htakes := (Catalog.ofEvents_of_fresh (.inl hc)).takesEvents
  obtain ⟨reports, ix', hloops, hfully, -, -, hids, -, -, hsum⟩ := @indexFully_empties
    ⟨.ofStore (.ofTable tableOfFour) [], c, { IndexerConfig.default with batchLimit := 2 }, none⟩ tableOfFour
    rfl rfl (by decide) (show 1 ≤ 2 by decide) htakes ⟨.epoch, 0⟩
  have hslices : ((List.range (tableOfFour.pending / 2 + 1)).map (slice tableOfFour.queue 2)).map
      (List.map QueueEntry.id) = [[1, 2], [3, 4], []] := by decide
  have hevents : (((List.range (tableOfFour.pending / 2 + 1)).map (slice tableOfFour.queue 2)).map
      fun entries => (entries.map QueueEntry.uuid).dedup.length).sum = 3 := by decide
  exact ⟨c, hc, reports, ix', hloops, hfully, hids.trans hslices, hsum.trans hevents⟩

end Indexer

end EventCatalog
