import EventCatalog.Proofs.Ledger

/-!
# What the catalog holds of the archive

In the archive an entry finds its event only while the event was last seen at the time that the entry has
recorded. When an event is seen again, its older entries go stale, although the event is still there. A
batch lets the first entry of an event decide, and all its entries are deleted afterwards. So where a stale
and a fresh entry of one event meet in one batch, the stale one decides, the event is taken for removed, and
no later cycle makes up for it.

**The invariant** (`Indexer.Accounted`) is that of every event without a queued entry the catalog holds what
its deciding entry finds. Every step keeps it up (`Accounted.run`), and so do the cycles of indexing fully
(`Accounted.indexFully`).

`Indexer.archive_find_eq_get?_iff` says when the catalog is in step with the archive once everything is
indexed: exactly if for every event of the archive the deciding entry has recorded the time at which the
event was last seen. That is so if batches agree (`Indexer.archive_find_eq_get?`).
It is not so in general (`Indexer.archive_find_ne_get?`).
-/

namespace EventCatalog

namespace Indexer

/-- The table is changed. -/
def withTable (ix : Indexer) (t : EventTable) : Indexer := { ix with drain := ix.drain.withTable t }

/-- The indexer of an archive without events and a catalog that has not been fed yet. -/
def archive (name : String) (observers : List Observer) (c : Catalog) (config : IndexerConfig)
    (metrics : Option Metrics) : Indexer where
  drain := .ofStore (.ofTable (.empty name true)) observers
  catalog := c
  config := config
  metrics := metrics

/-- Whether a step succeeded, and what has come of it. -/
def Step.run (ix : Indexer) : Step → Except ServiceError Unit × Indexer
  | upsert e => (.ok (), ix.withTable (ix.drain.table.upsert e).2)
  | remove now u => (.ok (), ix.withTable (ix.drain.table.remove now u).2)
  | cycle clock => ((ix.indexOnce clock).1.map fun _ => (), (ix.indexOnce clock).2)

/-- The indexer after steps, one after the other. -/
def runAll (ix : Indexer) (steps : List Step) : Indexer := steps.foldl (fun ix s => (s.run ix).2) ix

/-- Of every event without a queued entry the catalog holds what its deciding entry finds. -/
structure Accounted (config : IndexerConfig) (ix : Indexer) (l : Ledger) (m : EventMap) :
    Prop where
  config_eq : ix.config = config
  store_eq : ix.drain.store = .ofTable l.table
  isArchive : l.table.isArchive = true
  numbered : l.table.Numbered
  tracks : ix.catalog.Tracks m m
  decided : ∀ u, (∀ q ∈ l.table.queue, q.uuid ≠ u) →
    m.lookup u = (l.deciding u).bind l.table.join

namespace Accounted

variable {config : IndexerConfig} {ix : Indexer} {l : Ledger} {m : EventMap}

theorem archive {c : Catalog} (hc : c.Tracks ∅ ∅) (name : String) (observers : List Observer)
    (metrics : Option Metrics) :
    Accounted config (Indexer.archive name observers c config metrics) (.fresh name) ∅ where
  config_eq := rfl
  store_eq := rfl
  isArchive := rfl
  numbered := EventTable.numbered_empty name true
  tracks := hc
  decided := fun _ _ => rfl

theorem table_eq (h : Accounted config ix l m) : ix.drain.table = l.table := by
  change ix.drain.store.table = l.table
  rw [h.store_eq]
  rfl

/-- A change queues an entry of its event, and leaves what the entries of other events find. -/
theorem withTable (h : Accounted config ix l m) {t : EventTable} {v : Uuid} {entry : QueueEntry}
    (ht : l.table.Touched v entry t) :
    Accounted config (ix.withTable t) { l with table := t } m where
  config_eq := h.config_eq
  store_eq := Drain.store_withTable h.store_eq t
  isArchive := ht.isArchive_eq.trans h.isArchive
  numbered := ht.numbered h.numbered
  tracks := h.tracks
  decided := by
    intro u hqueued
    change ∀ q ∈ t.queue, q.uuid ≠ u at hqueued
    rw [ht.queue_eq] at hqueued
    -- the event of the change has a queued entry, so nothing is said about it
    have hv : u ≠ v := by
      rintro rfl
      exact hqueued entry (List.mem_append_right _ List.mem_cons_self) ht.uuid_eq
    rw [h.decided u fun q hq => hqueued q (List.mem_append_left _ hq)]
    change (l.deciding u).bind l.table.join = (l.deciding u).bind t.join
    -- the entry that decided is about `u`, of which the table holds the same as before
    cases hdeciding : l.deciding u with
    | none => rfl
    | some q =>
      rw [Option.bind_some, Option.bind_some, EventTable.join, EventTable.join,
        Ledger.uuid_of_deciding hdeciding, ht.isArchive_eq, ht.get?_eq u hv]

/-- An indexer without a lag reads all entries, however late they are. -/
theorem latest_eq (h : Accounted config ix l m) (hlag : config.archiveLagMillis = none)
    (now : Instant) : ix.latest now = none := by
  unfold latest
  rw [h.config_eq, hlag]
  split
  · rfl
  · rfl

/-- What a batch of the first entries makes of the events. -/
theorem lookup_applied_take (t : EventTable) (limit : Nat) (m : EventMap) (u : Uuid) :
    ((Batch.ofRows (t.fetch limit none)).applied m).lookup u =
      match (t.queue.take limit).find? fun q => q.uuid == u with
      | some q => t.join q
      | none => m.lookup u := by
  have hdecider : Batch.decider (t.fetch limit none) u =
      ((t.queue.take limit).find? fun q => q.uuid == u).map fun q => ⟨q, t.join q⟩ := by
    rw [EventTable.fetch_none, Batch.decider, List.find?_map]
    rfl
  rw [Batch.lookup_applied EventTable.keyed_of_mem_fetch, hdecider]
  cases (t.queue.take limit).find? fun q => q.uuid == u with
  | none => rfl
  | some q => rfl

/-- A batch and the deletion of its entries: the events of the batch are what their first entries have
found, and the others are as they were. -/
theorem cycle (h : Accounted config ix l m) {limit : Nat} {ix' : Indexer}
    (hconfig : ix'.config = config) (hstore : ix'.drain.store = .ofTable (l.cycle limit).table)
    (htracks : ix'.catalog.Tracks ((Batch.ofRows (l.table.fetch limit none)).applied m)
      ((Batch.ofRows (l.table.fetch limit none)).applied m)) :
    Accounted config ix' (l.cycle limit) ((Batch.ofRows (l.table.fetch limit none)).applied m) where
  config_eq := hconfig
  store_eq := hstore
  isArchive := h.isArchive
  numbered := by
    have hnumbered := h.numbered.deleteEntries ((l.table.queue.take limit).map QueueEntry.id)
    rw [EventTable.deleteEntries_take h.numbered] at hnumbered
    exact hnumbered
  tracks := htracks
  decided := by
    intro u hqueued
    change ∀ q ∈ l.table.queue.drop limit, q.uuid ≠ u at hqueued
    change _ = ((l.cycle limit).deciding u).bind l.table.join
    rw [lookup_applied_take, Ledger.deciding_cycle]
    cases hfind : (l.table.queue.take limit).find? fun q => q.uuid == u with
    | some q => rfl
    | none =>
      -- there was no entry of the event, neither in the batch nor after it
      show m.lookup u = (l.deciding u).bind l.table.join
      apply h.decided
      intro q hq
      rw [← List.take_append_drop limit l.table.queue, List.mem_append] at hq
      rcases hq with hq | hq
      · have hne := List.find?_eq_none.1 hfind q hq
        exact fun hu => hne (beq_iff_eq.2 hu)
      · exact hqueued q hq

/-- **A cycle succeeds**, and the account goes on by a batch. -/
theorem indexOnce (h : Accounted config ix l m) (hlag : config.archiveLagMillis = none)
    (clock : Clock) :
    ∃ (ix' : Indexer) (m' : EventMap),
      ix.indexOnce clock = (.ok (min config.batchLimit l.table.pending), ix') ∧
      Accounted config ix' (l.cycle config.batchLimit) m' := by
  have hfeed : Catalog.Tracks (⟨ix.catalog, .zero, clock.now⟩ : CatalogFeed).catalog m m := h.tracks
  obtain ⟨d, f, hrun, hstore, htracks, -⟩ :=
    Drain.run_ofTable h.store_eq hfeed rfl config.batchLimit none
  have hids : (l.table.fetch config.batchLimit none).map (fun r => r.entry.id) =
      (l.table.queue.take config.batchLimit).map QueueEntry.id := by
    rw [EventTable.fetch_none, List.map_map]
    rfl
  have hdelete := Drain.deleteEntries_ofTable hstore
    ((l.table.queue.take config.batchLimit).map QueueEntry.id)
  rw [EventTable.deleteEntries_take h.numbered] at hdelete
  -- the indexer after its batch, with the entries of the batch deleted
  let fed : Indexer := { ix with
    drain := d.withTable (l.cycle config.batchLimit).table
    catalog := f.catalog }
  refine ⟨fed.recordCycle clock (min config.batchLimit l.table.pending) f.tally, _, ?_,
    h.cycle h.config_eq (Drain.store_withTable hstore _) htracks⟩
  have hlimit : ix.config.batchLimit = config.batchLimit := by rw [h.config_eq]
  rw [hids] at hrun
  unfold Indexer.indexOnce
  rw [h.latest_eq hlag, hlimit]
  dsimp only
  rw [hrun]
  simp only [hdelete, List.length_map, List.length_take]
  rfl

/-- Cycles that go on until one reads less than a full batch empty the queue. The induction is on the
number of cycles that are allowed, which is larger than the number of entries left. -/
theorem indexCycles (h : Accounted config ix l m) (hlimit : 1 ≤ config.batchLimit)
    (hlag : config.archiveLagMillis = none) (clock : Clock) {cycles : Nat}
    (hcycles : l.table.pending < cycles) (total : Nat) :
    ∃ (ix' : Indexer) (m' : EventMap),
      Indexer.indexCycles clock cycles total ix = (.ok (total + l.table.pending), ix') ∧
      Accounted config ix' (l.fully config.batchLimit) m' := by
  induction cycles generalizing ix l m total with
  | zero => exact absurd hcycles (Nat.not_lt_zero _)
  | succ cycles ih =>
    obtain ⟨ix', m', honce, h'⟩ := h.indexOnce hlag clock
    have hconfig : ix'.config.batchLimit = config.batchLimit := by rw [h'.config_eq]
    rw [Indexer.indexCycles, honce]
    dsimp only
    rw [hconfig]
    -- a full batch: the cycles go on, with a smaller queue and one cycle less
    by_cases hfull : config.batchLimit ≤ l.table.pending
    · have hrest := l.pending_cycle config.batchLimit
      rw [Nat.min_eq_left hfull, if_neg (Nat.lt_irrefl _), Ledger.fully_of_le hlimit hfull]
      obtain ⟨ix'', m'', hcycle, h''⟩ := ih h' (by omega) (total + config.batchLimit)
      refine ⟨ix'', m'', ?_, h''⟩
      rw [hcycle, hrest, Nat.add_assoc, Nat.add_sub_cancel' hfull]
    -- less than a full batch: this cycle was the last one
    · have hless := Nat.lt_of_not_le hfull
      rw [Nat.min_eq_right hless.le, if_pos hless, Ledger.fully_of_lt hless]
      exact ⟨ix', m', rfl, h'⟩

/-- **Indexing fully succeeds** and leaves nothing to be indexed. -/
theorem indexFully (h : Accounted config ix l m) (hlimit : 1 ≤ config.batchLimit)
    (hlag : config.archiveLagMillis = none) (clock : Clock) :
    ∃ (ix' : Indexer) (m' : EventMap),
      ix.indexFully clock = (.ok l.table.pending, ix') ∧
      Accounted config ix' (l.fully config.batchLimit) m' := by
  obtain ⟨ix', m', hcycles, h'⟩ := h.indexCycles hlimit hlag clock (Nat.lt_succ_self _) 0
  refine ⟨ix', m', ?_, h'⟩
  rw [Indexer.indexFully, h.table_eq, hcycles, Nat.zero_add]

/-- **One step** succeeds, and the account follows it. -/
theorem run (h : Accounted config ix l m) (hlag : config.archiveLagMillis = none) (s : Step) :
    (s.run ix).1 = .ok () ∧
      ∃ m', Accounted config (s.run ix).2 (l.after config.batchLimit s) m' := by
  cases s with
  | upsert e =>
    refine ⟨rfl, m, ?_⟩
    simp only [Step.run, Ledger.after, h.table_eq]
    exact h.withTable (l.table.touched_upsert e)
  | remove now u =>
    refine ⟨rfl, m, ?_⟩
    simp only [Step.run, Ledger.after, h.table_eq]
    cases hget : l.table.get? u with
    | none =>
      have hsame : ix.withTable l.table = ix := by
        rw [← h.table_eq]
        rfl
      rw [EventTable.remove_of_get?_eq_none now hget, hsame]
      exact h
    | some e => exact h.withTable (EventTable.touched_remove now hget)
  | cycle clock =>
    obtain ⟨ix', m', honce, h'⟩ := h.indexOnce hlag clock
    simp only [Step.run, Ledger.after, honce]
    exact ⟨rfl, m', h'⟩

/-- The induction on the run. -/
theorem runAll (h : Accounted config ix l m) (hlag : config.archiveLagMillis = none)
    (steps : List Step) :
    ∃ m', Accounted config (ix.runAll steps) (steps.foldl (Ledger.after config.batchLimit) l) m' := by
  unfold Indexer.runAll
  induction steps generalizing ix l m with
  | nil => exact ⟨m, h⟩
  | cons s rest ih =>
    obtain ⟨-, m', hstep⟩ := h.run hlag s
    exact ih hstep

/-- Without a queued entry, an event is found in the catalog as its deciding entry finds it. -/
theorem find_eq (h : Accounted config ix l m) {u : Uuid} (hu : ∀ q ∈ l.table.queue, q.uuid ≠ u) :
    ix.catalog.find u = .ok ((l.deciding u).bind l.table.join) := by
  rw [h.tracks.find_eq, h.decided u hu]

/-- That is as the table holds it, or not at all if the deciding entry is stale. -/
theorem find_eq_get?_iff (h : Accounted config ix l m) {u : Uuid}
    (hu : ∀ q ∈ l.table.queue, q.uuid ≠ u) :
    ix.catalog.find u = .ok (l.table.get? u) ↔
      ∀ e, l.table.get? u = some e → ∃ q, l.deciding u = some q ∧ q.lastSeen = some e.lastSeen := by
  rw [h.find_eq hu, Except.ok.injEq]
  constructor
  -- what the deciding entry finds is fresh, since stale entries find nothing
  · intro heq e he
    rw [he, Option.bind_eq_some_iff] at heq
    obtain ⟨q, hq, hjoin⟩ := heq
    exact ⟨q, hq, ((EventTable.join_eq_some_iff h.isArchive).1 hjoin).2⟩
  · intro hfresh
    apply Option.ext
    intro e
    rw [Option.bind_eq_some_iff]
    constructor
    · rintro ⟨q, hq, hjoin⟩
      rw [← Ledger.uuid_of_deciding hq]
      exact ((EventTable.join_eq_some_iff h.isArchive).1 hjoin).1
    · intro he
      obtain ⟨q, hq, hseen⟩ := hfresh e he
      refine ⟨q, hq, (EventTable.join_eq_some_iff h.isArchive).2 ⟨?_, hseen⟩⟩
      rw [Ledger.uuid_of_deciding hq, he]

/-- Where batches agree, the catalog is in step with the archive once the queue is empty. -/
theorem find_eq_get?_of_agrees (h : Accounted config ix l m) (hl : l.Recorded) (hagrees : l.Agrees)
    (hempty : l.table.queue = []) (u : Uuid) : ix.catalog.find u = .ok (l.table.get? u) := by
  rw [h.find_eq_get?_iff (by rw [hempty]; exact List.forall_mem_nil _)]
  intro e he
  -- with an empty queue, the newest entry is in a batch
  obtain ⟨q, hq, hseen⟩ := hl.newest_seen u e he
  rw [Ledger.made, hempty, List.append_nil] at hq
  obtain ⟨q', hq', heq⟩ := hagrees.exists_deciding hq
  exact ⟨q', hq', heq.trans hseen⟩

end Accounted

section InStep

variable {catalogName : String} {searchConfig : SearchConfig} {c : Catalog} {config : IndexerConfig}

/-- The account of a whole run, and of indexing fully after it. -/
theorem accounted_indexFully
    (hc : Catalog.create catalogName searchConfig = .ok c ∨
      ∃ locked, Catalog.openDirectory catalogName searchConfig .absent locked = .ok c)
    (hlimit : 1 ≤ config.batchLimit) (hlag : config.archiveLagMillis = none)
    (name : String) (observers : List Observer) (metrics : Option Metrics) (steps : List Step)
    (clock : Clock) :
    let ix := (archive name observers c config metrics).runAll steps
    let l := (steps.foldl (Ledger.after config.batchLimit) (.fresh name)).fully config.batchLimit
    (∀ s : Step, (s.run ix).1 = .ok ()) ∧
      ∃ (ix' : Indexer) (m : EventMap), ix.indexFully clock = (.ok ix.drain.table.pending, ix') ∧
        Accounted config ix' l m ∧ l.table.queue = [] := by
  intro ix l
  -- a fresh catalog and a fresh archive agree that there is nothing
  have hfresh : Accounted config (archive name observers c config metrics) (.fresh name) ∅ :=
    .archive (Catalog.tracks_of_fresh hc) name observers metrics
  obtain ⟨m, hix⟩ := hfresh.runAll hlag steps
  obtain ⟨ix', m', hfully, h'⟩ := hix.indexFully hlimit hlag clock
  refine ⟨fun s => (hix.run hlag s).1, ix', m', ?_, h', Ledger.queue_fully hlimit _⟩
  rw [hfully, hix.table_eq]

/-- **When the catalog is in step with the archive.** Let the indexer of a fresh archive feed a fresh catalog
without a lag, and let changes and cycles follow each other in any order. Every step succeeds, and so does
indexing fully, which leaves nothing in the queue. Of an event the catalog then finds what the entry that
decided about it finds in the archive. That is what the archive holds if and only if the entry has recorded
when the event was last seen. -/
theorem archive_find_eq_get?_iff
    (hc : Catalog.create catalogName searchConfig = .ok c ∨
      ∃ locked, Catalog.openDirectory catalogName searchConfig .absent locked = .ok c)
    (hlimit : 1 ≤ config.batchLimit) (hlag : config.archiveLagMillis = none)
    (name : String) (observers : List Observer) (metrics : Option Metrics) (steps : List Step)
    (clock : Clock) :
    let ix := (archive name observers c config metrics).runAll steps
    let l := (steps.foldl (Ledger.after config.batchLimit) (.fresh name)).fully config.batchLimit
    (∀ s : Step, (s.run ix).1 = .ok ()) ∧
      ∃ ix', ix.indexFully clock = (.ok ix.drain.table.pending, ix') ∧
        ix'.drain.table = l.table ∧ l.table.queue = [] ∧
        ∀ u, ix'.catalog.find u = .ok ((l.deciding u).bind l.table.join) ∧
          (ix'.catalog.find u = .ok (l.table.get? u) ↔
            ∀ e, l.table.get? u = some e →
              ∃ q, l.deciding u = some q ∧ q.lastSeen = some e.lastSeen) := by
  intro ix l
  obtain ⟨hsteps, ix', m, hfully, h, hempty⟩ :=
    accounted_indexFully hc hlimit hlag name observers metrics steps clock
  refine ⟨hsteps, ix', hfully, h.table_eq, hempty, fun u => ?_⟩
  have hqueued : ∀ q ∈ l.table.queue, q.uuid ≠ u := by
    rw [hempty]
    exact List.forall_mem_nil _
  exact ⟨h.find_eq hqueued, h.find_eq_get?_iff hqueued⟩

/-- An event that is seen again after a cycle is found as it is now: the batch of the second entry has no
other. -/
theorem archive_find_eq_get?_iff_cycled :
    let seen (at' : Instant) : Event :=
      { Event.raise (.ofNat 1) .epoch "host" "/Status" "down" .warning with lastSeen := at' }
    ∃ c, Catalog.create "events" .default = .ok c ∧
      (((archive "event_archive" [] c .default none).runAll [.upsert (seen .earliest),
        .cycle ⟨.epoch, 0⟩, .upsert (seen .epoch)]).indexFully ⟨.epoch, 0⟩).2.catalog.find
          (.ofNat 1) = .ok (some (seen .epoch)) := by
  intro seen
  have hc : Catalog.create "events" .default = .ok _ := rfl
  refine ⟨_, hc, ?_⟩
  obtain ⟨-, ix', hfully, -, -, hfind⟩ := archive_find_eq_get?_iff (.inl hc)
    (show 1 ≤ IndexerConfig.default.batchLimit by decide) rfl "event_archive" [] none
    [.upsert (seen .earliest), .cycle ⟨.epoch, 0⟩, .upsert (seen .epoch)] ⟨.epoch, 0⟩
  rw [hfully]
  refine ((hfind (.ofNat 1)).2.2 fun e he => ?_).trans ?_
  · have hseen : seen .epoch = e :=
      Option.some.inj (Eq.trans (show some (seen .epoch) = _ by decide +kernel) he)
    refine ⟨⟨2, .ofNat 1, .epoch, some .epoch⟩, by decide +kernel, ?_⟩
    rw [← hseen]
  · decide +kernel

/-- **The catalog is not always in step with the archive.** An event is seen, and seen again. Then both
entries are in one batch, whose first one is stale, so that the archive holds the event and nothing is
queued, but the catalog does not find it. -/
theorem archive_find_ne_get? :
    let seen (at' : Instant) : Event :=
      { Event.raise (.ofNat 1) .epoch "host" "/Status" "down" .warning with lastSeen := at' }
    ∃ c, Catalog.create "events" .default = .ok c ∧
      let ix := (archive "event_archive" [] c .default none).runAll
        [.upsert (seen .earliest), .upsert (seen .epoch)]
      let ix' := (ix.indexFully ⟨.epoch, 0⟩).2
      (ix.indexFully ⟨.epoch, 0⟩).1 = .ok 2 ∧ ix'.drain.table.queue = [] ∧
        ix'.drain.table.get? (.ofNat 1) = some (seen .epoch) ∧
        ix'.catalog.find (.ofNat 1) = .ok none := by
  refine ⟨_, rfl, ?_, ?_, ?_, ?_⟩
  · decide +kernel
  · decide +kernel
  · decide +kernel
  · decide +kernel

/-- **Batches that agree** leave the catalog in step: every event is found just as the archive holds it. -/
theorem archive_find_eq_get?
    (hc : Catalog.create catalogName searchConfig = .ok c ∨
      ∃ locked, Catalog.openDirectory catalogName searchConfig .absent locked = .ok c)
    (hlimit : 1 ≤ config.batchLimit) (hlag : config.archiveLagMillis = none)
    (name : String) (observers : List Observer) (metrics : Option Metrics) (steps : List Step)
    (clock : Clock)
    (hagrees : ((steps.foldl (Ledger.after config.batchLimit) (.fresh name)).fully
      config.batchLimit).Agrees) (u : Uuid) :
    let ix := (((archive name observers c config metrics).runAll steps).indexFully clock).2
    ix.catalog.find u = .ok (ix.drain.table.get? u) := by
  obtain ⟨-, ix', m, hfully, h, hempty⟩ :=
    accounted_indexFully hc hlimit hlag name observers metrics steps clock
  have hrecorded := ((Ledger.recorded_fresh name).foldl_after config.batchLimit steps).fully
    config.batchLimit
  rw [hfully]
  show ix'.catalog.find u = .ok (ix'.drain.table.get? u)
  rw [h.table_eq]
  exact h.find_eq_get?_of_agrees hrecorded hagrees hempty u

end InStep

end Indexer

end EventCatalog
