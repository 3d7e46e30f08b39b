import EventCatalog.Config.Indexer
import EventCatalog.Queue.CatalogFeed
import EventCatalog.Queue.Drain

/-!
# Indexing

An `Indexer` keeps a catalog in step with a table. A cycle drains a batch into the catalog and then
deletes its rows. Rows are deleted only after the batch has been committed, so that after a failure
they are dealt with once more.
-/

namespace EventCatalog

/-- The time at which something is done, and the seconds that it takes. -/
structure Clock where
  now : Instant
  elapsed : Float
deriving Inhabited, Repr

/-- A catalog and the drain that feeds it. -/
structure Indexer where
  drain : Drain
  catalog : Catalog
  config : IndexerConfig
  /-- Where cycles are recorded, if anywhere. -/
  metrics : Option Metrics
deriving Inhabited, Repr

namespace Indexer

/-- The latest time of rows that a cycle may read. Of the archive, rows of late are left for a later
cycle; a lag that reaches back before all times leaves all but those of the earliest time. -/
def latest (ix : Indexer) (now : Instant) : Option Instant :=
  if ix.drain.table.isArchive then
    ix.config.archiveLagMillis.map fun lag => (now.before? (Span.ofMillis lag).duration).getD .earliest
  else none

/-- Records a cycle that read rows. -/
def recordCycle (ix : Indexer) (clock : Clock) (rows : Nat) (tally : FeedTally) : Indexer :=
  let record := fun (m : Metrics) =>
    m.recordCycle ix.drain.table.name rows.toUInt64 tally.indexedTotal.toUInt64
      tally.deletedTotal.toUInt64 clock.elapsed
  { ix with metrics := ix.metrics.map record }

/-- Runs a cycle; the outcome is the number of rows that were dealt with. -/
def indexOnce (ix : Indexer) (clock : Clock) : Except ServiceError Nat × Indexer :=
  let feed : CatalogFeed := ⟨ix.catalog, .zero, clock.now⟩
  match ix.drain.run feed ix.config.batchLimit (ix.latest clock.now) with
  | (.error e, d, feed) => (.error e, { ix with drain := d, catalog := feed.catalog })
  | (.ok ids, d, feed) =>
    match d.deleteEntries ids with
    | (.error e, d) => (.error e, { ix with drain := d, catalog := feed.catalog })
    | (.ok _, d) =>
      (.ok ids.length,
        { ix with drain := d, catalog := feed.catalog }.recordCycle clock ids.length feed.tally)

/-- Runs cycles until one deals with less than a full batch, but at most so many; `total` is the
number of rows before. -/
def indexCycles (clock : Clock) : Nat → Nat → Indexer → Except ServiceError Nat × Indexer
  | 0, total, ix => (.ok total, ix)
  | cycles + 1, total, ix =>
    match ix.indexOnce clock with
    | (.error e, ix) => (.error e, ix)
    | (.ok n, ix) =>
      if n < ix.config.batchLimit then (.ok (total + n), ix)
      else indexCycles clock cycles (total + n) ix

/-- Runs cycles until one deals with less than a full batch; the outcome is the number of rows. Each
full batch takes at least one row from the queue, so there is one cycle more than rows at most. -/
def indexFully (ix : Indexer) (clock : Clock) : Except ServiceError Nat × Indexer :=
  indexCycles clock (ix.drain.table.pending + 1) 0 ix

/-- Records a failure. -/
def recordFailure (ix : Indexer) : Indexer :=
  { ix with metrics := ix.metrics.map fun m => m.recordFailure ix.drain.table.name }

/-- Indexes fully in the background, where a failure is only recorded. -/
def tick (ix : Indexer) (clock : Clock) : Indexer :=
  match ix.indexFully clock with
  | (.ok _, ix) => ix
  | (.error _, ix) => ix.recordFailure

/-- Indexes in the background until the queue is empty, but at most so many times. -/
def ticksUntilEmpty (clock : Clock) : Nat → Indexer → Indexer
  | 0, ix => ix
  | ticks + 1, ix =>
    if ix.drain.table.queue.isEmpty then ix else ticksUntilEmpty clock ticks (ix.tick clock)

/-- Indexes in the background until the queue is empty, and once more. A tick fails only while calls
of the store fail, so the queue is empty one tick after the outage at the latest. -/
def runInBackground (ix : Indexer) (clock : Clock) : Indexer :=
  (ticksUntilEmpty clock (ix.drain.store.failuresLeft + 1) ix).tick clock

end Indexer

end EventCatalog
