import EventCatalog.Catalog.Basic
import EventCatalog.Queue.Batch

/-!
# Feeding a catalog

A `CatalogFeed` is the handler that brings a catalog into step with a table. Changed events are
staged as they come. Removed ones are kept until the batch is complete, and removed together, which
also merges the segments; a batch without removals is just committed.
-/

namespace EventCatalog

/-- What a handler has done so far. -/
structure FeedTally where
  /-- The events staged in this batch. -/
  staged : Nat
  /-- The events to be removed at the end of this batch. -/
  pendingRemovals : List Uuid
  /-- The events staged in completed batches. -/
  indexedTotal : Nat
  /-- The events removed in completed batches. -/
  deletedTotal : Nat
deriving DecidableEq, Inhabited, Repr

/-- The tally of a handler that has done nothing. -/
def FeedTally.zero : FeedTally := ⟨0, [], 0, 0⟩

/-- The tally after a batch. -/
def FeedTally.completed (t : FeedTally) : FeedTally :=
  ⟨0, [], t.indexedTotal + t.staged, t.deletedTotal + t.pendingRemovals.length⟩

/-- A tally as JSON. -/
def FeedTally.toJson (t : FeedTally) : Json := .obj [
  ("staged", .int t.staged),
  ("pending_deletes", .arr (t.pendingRemovals.map Uuid.toJson)),
  ("indexed_total", .int t.indexedTotal),
  ("deleted_total", .int t.deletedTotal)]

/-- A catalog that is fed with batches. -/
structure CatalogFeed where
  catalog : Catalog
  tally : FeedTally
  /-- When and how the commits are made. -/
  now : Occasion
deriving Inhabited, Repr

namespace CatalogFeed

/-- Commits a batch, with its removals if there are any. -/
def finish (f : CatalogFeed) : Catalog.Outcome Unit :=
  if f.tally.pendingRemovals.isEmpty then f.catalog.commit f.now false
  else
    let o := f.catalog.deleteMany f.now f.tally.pendingRemovals
    (o.1.map fun _ => (), o.2)

/-- Completes a batch. If that fails, the batch is still open. -/
def complete (f : CatalogFeed) : Except ServiceError Unit × CatalogFeed :=
  match f.finish with
  | (.ok (), c) => (.ok (), { f with catalog := c, tally := f.tally.completed })
  | (.error e, c) => (.error e.toService, { f with catalog := c })

instance : BatchHandler CatalogFeed where
  perform f
    | .prepare _ => (.ok (), f)
    | .handle e => (.ok (), { f with
        catalog := f.catalog.stage e
        tally := { f.tally with staged := f.tally.staged + 1 } })
    | .drop uuid => (.ok (), { f with
        tally := { f.tally with pendingRemovals := f.tally.pendingRemovals ++ [uuid] } })
    | .complete => f.complete

end CatalogFeed

end EventCatalog
