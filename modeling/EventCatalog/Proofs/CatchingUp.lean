import EventCatalog.Proofs.IndexingLoop
import EventCatalog.Proofs.Throttling

/-!
# Ingestion after indexing has caught up

An observer is told the length of the queue in the middle of a cycle: the rows of the batch have been dealt with, but
they are deleted only afterwards. So what a throttle is told last counts the rows of the last batch, although the
queue is empty by then.

A cycle that succeeds is taken apart once (`Indexer.eq_of_cycle`): whatever the connection and the catalog are, it
reads the first rows, makes the length of the queue known, and deletes what it has read. Indexing fully that succeeds
is a loop of such cycles (`Indexer.exists_loops_of_indexFully`). Of a table of recent events the loop ends with less
than a full batch, which is the remainder of the queue by the size of a batch; that remainder is what a throttle knows
then (`Indexer.Loops.throttle_eq`). It does not hold back if the remainder is not above its threshold, as with a
threshold left to the limit of the drain. With a lower threshold it goes on holding back ingestion for an empty queue
(`Indexer.indexFully_disengages_iff`, `Indexer.indexFully_stays_engaged`).
-/

namespace EventCatalog

/-! ### Calls that succeed -/

/-- A call that succeeds is done. -/
theorem Connection.eq_of_request {α : Type} {c c' : Connection} {call : StoreCall} {f : EventTable → α × EventTable}
    {a : α} (h : c.request call f = (.ok a, c')) : a = (f c.table).1 ∧ c'.table = (f c.table).2 := by
  unfold request at h
  split at h
  · cases h
  · cases h
    exact ⟨rfl, rfl⟩

/-- How long the queue of a table is, as it is made known for a drain with a limit. -/
def EventTable.size (t : EventTable) (limit : Nat) : QueueSize := ⟨t.name, t.pending.toUInt64, limit.toUInt64⟩

/-- A drain that succeeds has read the first rows and made the length of the queue known, with these rows in it. -/
theorem Drain.eq_of_run {η : Type} [BatchHandler η] {d d' : Drain} {h h' : η} {limit : Nat}
    {latest : Option Instant} {ids : List Int} (hrun : d.run h limit latest = (.ok ids, d', h')) :
    ids = (d.table.fetch limit latest).map (fun r => r.entry.id) ∧ d'.table = d.table ∧
      d'.observers = d.observers.map (Observer.notice (d.table.size limit)) := by
  -- the fetch, the calls of the handler and the question for the length: none of them has failed
  unfold run at hrun
  rcases hfetch : d.store.fetch limit latest with ⟨_ | rows, store⟩
  · rw [hfetch] at hrun
    cases hrun
  · obtain ⟨rfl, hstore⟩ := Connection.eq_of_request hfetch
    rw [hfetch] at hrun
    dsimp only at hrun
    split at hrun
    · cases hrun
    · rcases hpending : store.pending with ⟨_ | size, store'⟩
      · rw [hpending] at hrun
        cases hrun
      · obtain ⟨rfl, hstore'⟩ := Connection.eq_of_request hpending
        have htable : store'.table = d.table := hstore'.trans hstore
        rw [hpending] at hrun
        cases hrun
        -- nothing of this changes the table, so its length is the one before the batch
        refine ⟨rfl, htable, ?_⟩
        simp only [publish, table, EventTable.size, htable, hstore]

/-- A deletion that succeeds has deleted the entries, and told nobody. -/
theorem Drain.eq_of_deleteEntries {d d' : Drain} {ids : List Int} {deleted : Nat}
    (h : d.deleteEntries ids = (.ok deleted, d')) :
    d'.table = (d.table.deleteEntries ids).2 ∧ d'.observers = d.observers := by
  unfold deleteEntries at h
  rcases hdelete : d.store.deleteEntries ids with ⟨_ | n, store⟩
  · rw [hdelete] at h
    cases h
  · obtain ⟨-, hstore⟩ := Connection.eq_of_request hdelete
    rw [hdelete] at h
    cases h
    exact ⟨hstore, rfl⟩

namespace EventTable

variable {t : EventTable} {limit : Nat} {latest : Option Instant}

/-- Of a table of recent events, the first entries are fetched and deleted. -/
theorem fetched_none (h : t.queuedIds.Nodup) (limit : Nat) :
    t.fetched limit none = { t with queue := t.queue.drop limit } := by
  rw [← filter_ids_take h limit, ← ids_rows]
  unfold fetched
  rw [fetch_eq_rows, due_none]
  rfl

/-- A fetch takes as many entries out of the queue as it reads. -/
theorem pending_fetched (h : t.queuedIds.Nodup) :
    (t.fetched limit latest).pending + (t.fetch limit latest).length = t.pending := by
  have hdeleted : t.pending - (t.fetched limit latest).pending = (t.fetch limit latest).length :=
    congrArg Prod.fst (deleteEntries_fetch h)
  have hkept : (t.fetched limit latest).pending ≤ t.pending := List.length_filter_le _ _
  omega

end EventTable

namespace Indexer

variable {clock : Clock} {ix ix' : Indexer}

/-! ### Cycles that succeed -/

/-- **A cycle that succeeds** has read the first rows, made the length of the queue known, and then deleted them. -/
theorem eq_of_cycle {r : Cycle} (h : ix.cycle clock = (.ok r, ix')) :
    r.ids.length = (ix.drain.table.fetch ix.config.batchLimit (ix.latest clock.now)).length ∧
      ix'.drain.table = ix.drain.table.fetched ix.config.batchLimit (ix.latest clock.now) ∧
      ix'.drain.observers =
        ix.drain.observers.map (Observer.notice (ix.drain.table.size ix.config.batchLimit)) ∧
      ix'.config = ix.config := by
  have hconfig := ix.config_cycle clock
  rw [h] at hconfig
  unfold cycle at h
  dsimp only at h
  rcases hrun : ix.drain.run (⟨ix.catalog, .zero, clock.now⟩ : CatalogFeed) ix.config.batchLimit
    (ix.latest clock.now) with ⟨_ | ids, d, feed⟩
  · rw [hrun] at h
    cases h
  · obtain ⟨rfl, htable, hobservers⟩ := Drain.eq_of_run hrun
    rw [hrun] at h
    dsimp only at h
    split at h
    · cases h
    · next deleted d' hdelete =>
      obtain ⟨htable', hobservers'⟩ := Drain.eq_of_deleteEntries hdelete
      cases h
      refine ⟨List.length_map _, ?_, hobservers'.trans hobservers, hconfig⟩
      -- what is deleted are the entries that were read, from the table as it was then
      rw [htable] at htable'
      exact htable'

/-- **Indexing fully that succeeds** is a loop of cycles. Each full batch takes entries out of the queue, so the bound
on the number of cycles is not reached. -/
theorem exists_loops_of_indexCycles (hnodup : ix.drain.table.queuedIds.Nodup) (hlimit : 1 ≤ ix.config.batchLimit)
    {bound total n : Nat} (hbound : ix.drain.table.pending < bound)
    (h : indexCycles clock bound total ix = (.ok n, ix')) : ∃ reports, Loops clock ix reports ix' := by
  -- on the bound: a full batch leaves fewer entries, so the rest of the bound is still greater than their number
  induction bound generalizing ix total with
  | zero => exact absurd hbound (Nat.not_lt_zero _)
  | succ bound ih =>
    rw [indexCycles, indexOnce_eq] at h
    rcases hcycle : ix.cycle clock with ⟨_ | r, ix₁⟩
    · rw [hcycle] at h
      cases h
    · obtain ⟨hread, htable, -, hconfig⟩ := eq_of_cycle hcycle
      rw [hcycle] at h
      simp only [Except.map] at h
      split at h
      · next hless =>
        cases h
        rw [hconfig] at hless
        exact ⟨[r], .last hcycle hless⟩
      · next hfull =>
        rw [hconfig, Nat.not_lt] at hfull
        have hpending : (ix.drain.table.fetched ix.config.batchLimit (ix.latest clock.now)).pending +
            (ix.drain.table.fetch ix.config.batchLimit (ix.latest clock.now)).length = ix.drain.table.pending :=
          EventTable.pending_fetched hnodup
        rw [← htable, ← hread] at hpending
        obtain ⟨reports, hloops⟩ := ih (htable ▸ EventTable.nodup_fetched hnodup) (hconfig ▸ hlimit)
          (by omega) h
        exact ⟨r :: reports, .next hcycle hfull hloops⟩

/-! ### What a throttle knows afterwards -/

/-- A cycle over the queue of a table of recent events reads a batch, or all entries if they are less, and a throttle
is told of them all. -/
theorem eq_of_cycle_recent {r : Cycle} (h : ix.cycle clock = (.ok r, ix'))
    (hrecent : ix.drain.table.isArchive = false) (hnodup : ix.drain.table.queuedIds.Nodup) {k : Nat} {t : Throttle}
    (hthrottle : ix.drain.observers[k]? = some (.throttle t)) :
    r.ids.length = min ix.config.batchLimit ix.drain.table.pending ∧
      ix'.drain.table = { ix.drain.table with queue := ix.drain.table.queue.drop ix.config.batchLimit } ∧
      ix'.drain.observers[k]? = some (.throttle (t.notice (ix.drain.table.size ix.config.batchLimit))) ∧
      ix'.config = ix.config := by
  obtain ⟨hread, htable, hobservers, hconfig⟩ := eq_of_cycle h
  -- only of the archive are late entries left
  have hlatest : ix.latest clock.now = none := by
    rw [latest, hrecent]
    rfl
  rw [hlatest] at hread htable
  refine ⟨?_, ?_, ?_, hconfig⟩
  · rw [hread, EventTable.fetch_none, List.length_map, List.length_take]
    rfl
  · rw [htable, EventTable.fetched_none hnodup]
  · rw [hobservers, List.getElem?_map, hthrottle]
    rfl

/-- **After the loop** over the queue of a table of recent events the queue is empty, and what a throttle has been told
last is the number of entries that were left for the last batch. -/
theorem Loops.throttle_eq {reports : List Cycle} (h : Loops clock ix reports ix')
    (hname : ix.drain.table.name = EventTable.summaryName) (hrecent : ix.drain.table.isArchive = false)
    (hnodup : ix.drain.table.queuedIds.Nodup) {k : Nat} {t : Throttle}
    (hthrottle : ix.drain.observers[k]? = some (.throttle t)) :
    ix'.drain.table.queue = [] ∧
      ix'.drain.observers[k]? = some (.throttle (t.notice ⟨EventTable.summaryName,
        (ix.drain.table.pending % ix.config.batchLimit).toUInt64, ix.config.batchLimit.toUInt64⟩)) := by
  -- on the cycles: what a throttle is told by one of them is forgotten with the next one
  induction h generalizing t with
  | @last ix ix' r once less =>
    obtain ⟨hread, htable, hknown, -⟩ := eq_of_cycle_recent once hrecent hnodup hthrottle
    have hall : ix.drain.table.pending < ix.config.batchLimit := by omega
    refine ⟨?_, ?_⟩
    · rw [htable]
      exact List.drop_eq_nil_of_le (Nat.le_of_lt hall)
    · rw [hknown, Nat.mod_eq_of_lt hall, EventTable.size, hname]
  | @next ix ix₁ ix' r rest once full others ih =>
    obtain ⟨hread, htable, hknown, hconfig⟩ := eq_of_cycle_recent once hrecent hnodup hthrottle
    have hfull : ix.config.batchLimit ≤ ix.drain.table.pending := by omega
    -- a full batch is taken off, which leaves the remainder as it is
    have hleft : ix₁.drain.table.pending = ix.drain.table.pending - ix.config.batchLimit := by
      rw [htable]
      exact List.length_drop
    have hnodup₁ : ix₁.drain.table.queuedIds.Nodup := by
      rw [htable]
      exact hnodup.sublist ((List.drop_sublist _ _).map _)
    obtain ⟨hempty, hknown'⟩ := ih (by rw [htable, hname]) (by rw [htable, hrecent]) hnodup₁ hknown
    refine ⟨hempty, ?_⟩
    rw [hknown', hleft, hconfig, ← Nat.mod_eq_sub_mod hfull, Throttle.notice_notice]
    exact List.prefix_rfl

/-- **When indexing has caught up.** Of a table of recent events, with any queue and any connection and catalog,
indexing fully that succeeds leaves an empty queue. A throttle that the drain keeps informed, whether it held back
before or not, then does not hold back if and only if the entries of the last batch were not more than its threshold,
in 64 bits. So it is if the threshold is left to the limit of the drain, which is less than half of what 64 bits hold;
or if the threshold is set, and less than a full batch does not exceed it. -/
theorem indexFully_disengages_iff {n k : Nat} {t : Throttle} (hname : ix.drain.table.name = EventTable.summaryName)
    (hrecent : ix.drain.table.isArchive = false) (hnodup : ix.drain.table.queuedIds.Nodup)
    (hlimit : 1 ≤ ix.config.batchLimit) (hword : ix.config.batchLimit < 2 ^ 64)
    (hthrottle : ix.drain.observers[k]? = some (.throttle t)) (hfully : ix.indexFully clock = (.ok n, ix')) :
    let last := ix.drain.table.pending % ix.config.batchLimit
    let threshold := t.exactThreshold ix.config.batchLimit.toUInt64 % 2 ^ 64
    ix'.drain.table.queue = [] ∧
    ∃ t', ix'.drain.observers[k]? = some (.throttle t') ∧
      (t'.engaged = false ↔ last ≤ threshold) ∧ (t'.delay? = none ↔ last ≤ threshold) ∧
      (t.threshold = 0 → ix.config.batchLimit < 2 ^ 63 → last ≤ threshold) ∧
      (t.threshold ≠ 0 → ix.config.batchLimit ≤ t.threshold.toNat + 1 → last ≤ threshold) := by
  intro last threshold
  obtain ⟨reports, hloops⟩ := exists_loops_of_indexCycles hnodup hlimit (Nat.lt_succ_self _) hfully
  obtain ⟨hempty, hknown⟩ := hloops.throttle_eq hname hrecent hnodup hthrottle
  have hless : last < ix.config.batchLimit := Nat.mod_lt _ hlimit
  -- the limit and the entries of the last batch fit into 64 bits
  have hlimit' : ix.config.batchLimit.toUInt64.toNat = ix.config.batchLimit := Nat.mod_eq_of_lt hword
  have hlast' : last.toUInt64.toNat = last := Nat.mod_eq_of_lt (Nat.lt_trans hless hword)
  let size : QueueSize := ⟨EventTable.summaryName, last.toUInt64, ix.config.batchLimit.toUInt64⟩
  have hsize : size.IsRecent := List.prefix_rfl
  have hengaged : (t.notice size).engaged = false ↔ last ≤ threshold := by
    rw [Throttle.notice_of_isRecent t hsize, decide_eq_false_iff_not, hlast', Nat.not_lt]
  refine ⟨hempty, t.notice size, hknown, hengaged, (Throttle.delay?_eq_none_iff _).trans hengaged, ?_, ?_⟩
  · intro hzero hhalf
    have hexact : t.exactThreshold ix.config.batchLimit.toUInt64 = 2 * max ix.config.batchLimit 100 := by
      rw [Throttle.exactThreshold, if_pos hzero, hlimit']
    -- twice the limit does not wrap around, and the last batch is less than one limit
    have hthreshold : threshold = 2 * max ix.config.batchLimit 100 % 2 ^ 64 := by rw [← hexact]
    omega
  · intro hset hle
    have hthreshold : threshold = t.threshold.toNat := by
      have hexact : t.exactThreshold ix.config.batchLimit.toUInt64 = t.threshold.toNat := if_neg hset
      rw [← Nat.mod_eq_of_lt t.threshold.toNat_lt, ← hexact]
    omega

/-- A throttle that holds back, with its threshold left to the limit of the drain, does no longer when all entries of
the queue are dealt with. -/
theorem indexFully_disengages_four :
    ∃ c, Catalog.create "events" .default = .ok c ∧
      let held : Throttle := ⟨0, 100, true⟩
      let ix : Indexer := ⟨.ofStore (.ofTable tableOfFour) [.log [], .throttle held], c,
        { IndexerConfig.default with batchLimit := 3 }, none⟩
      ∃ ix' t', ix.indexFully ⟨.epoch, 0⟩ = (.ok 4, ix') ∧ ix'.drain.table.queue = [] ∧
        ix'.drain.observers[1]? = some (.throttle t') ∧ t'.engaged = false ∧ t'.delay? = none := by
  obtain ⟨c, hc, htakes⟩ := Catalog.exists_takesEvents
  refine ⟨c, hc, ?_⟩
  intro held ix
  have hnodup : tableOfFour.queuedIds.Nodup := by decide
  have hserves : Serves ⟨.epoch, 0⟩ 3 none ix tableOfFour := ⟨rfl, rfl, rfl, hnodup, htakes⟩
  obtain ⟨reports, ix', -, hfully, -⟩ := exists_indexFully (by decide) hserves
  obtain ⟨hempty, t', hknown, hengaged, hdelay, hderived, -⟩ := @indexFully_disengages_iff ⟨.epoch, 0⟩ ix ix' 4 1
    held rfl rfl hnodup (show 1 ≤ 3 by decide) (show 3 < 2 ^ 64 by decide) rfl hfully
  have hlast := hderived rfl (show 3 < 2 ^ 63 by decide)
  exact ⟨ix', t', hfully, hempty, hknown, hengaged.2 hlast, hdelay.2 hlast⟩

/-- A table with two entries in its queue. -/
def tableOfTwo : EventTable :=
  let e (n : Nat) : Event := .raise (.ofNat n) .epoch "host" "/Status" "down" .warning
  (((EventTable.empty EventTable.summaryName false).upsert (e 1)).2.upsert (e 2)).2

/-- **Ingestion may be held back for an empty queue.** Two entries are dealt with in one batch, and a throttle with a
threshold of one goes on to ask for pauses. -/
theorem indexFully_stays_engaged :
    ∃ c, Catalog.create "events" .default = .ok c ∧
      let ix : Indexer := ⟨.ofStore (.ofTable tableOfTwo) [.throttle (.ofThreshold 1 100)], c,
        { IndexerConfig.default with batchLimit := 10 }, none⟩
      ∃ ix' t', ix.indexFully ⟨.epoch, 0⟩ = (.ok 2, ix') ∧ ix'.drain.table.queue = [] ∧
        ix'.drain.observers[0]? = some (.throttle t') ∧ t'.engaged = true ∧ t'.delay? = some 100 := by
  obtain ⟨c, hc, htakes⟩ := Catalog.exists_takesEvents
  refine ⟨c, hc, ?_⟩
  intro ix
  have hnodup : tableOfTwo.queuedIds.Nodup := by decide
  have hserves : Serves ⟨.epoch, 0⟩ 10 none ix tableOfTwo := ⟨rfl, rfl, rfl, hnodup, htakes⟩
  obtain ⟨reports, ix', hloops, hfully, -⟩ := exists_indexFully (by decide) hserves
  obtain ⟨hempty, hknown⟩ := @Loops.throttle_eq _ _ _ _ hloops rfl rfl hnodup 0 _ rfl
  have hrecent : (QueueSize.mk EventTable.summaryName 2 10).IsRecent := List.prefix_rfl
  refine ⟨ix', (Throttle.ofThreshold 1 100).notice ⟨EventTable.summaryName, 2, 10⟩, hfully, hempty, hknown, ?_⟩
  rw [Throttle.notice_of_isRecent _ hrecent]
  decide

end Indexer

end EventCatalog
