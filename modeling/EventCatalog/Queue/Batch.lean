import EventCatalog.Error
import EventCatalog.Queue.Table

/-!
# Batches

The rows of one fetch make a batch. An event that several rows refer to counts once, and its first
row decides whether it was changed or removed. `Batch.calls` says what a handler is asked to do with
the batch, in this order: it is told all changed events at once, then each of them, then each
removed one, and then that the batch is complete.
-/

namespace EventCatalog

/-- What has come of the rows of one fetch. -/
structure Batch where
  /-- The numbers of all rows. -/
  ids : List Int
  changed : List Event
  removed : List Uuid
deriving DecidableEq, Inhabited, Repr

/-- Something that a handler is asked to do. -/
inductive HandlerCall where
  /-- Get ready for these events. -/
  | prepare (events : List Event)
  /-- Take up an event that was changed. -/
  | handle (event : Event)
  /-- Drop an event that was removed. -/
  | drop (uuid : Uuid)
  /-- Finish the batch. -/
  | complete
deriving DecidableEq, Inhabited, Repr

namespace Batch

/-- The first row of each event, in the order of the rows. -/
def firstRows : List QueueRow → List QueueRow
  | [] => []
  | r :: rest => r :: (firstRows rest).filter fun s => s.entry.uuid != r.entry.uuid

/-- The batch of the rows of a fetch. -/
def ofRows (rows : List QueueRow) : Batch where
  ids := rows.map fun r => r.entry.id
  changed := (firstRows rows).filterMap QueueRow.event
  removed := ((firstRows rows).filter fun r => r.event.isNone).map fun r => r.entry.uuid

/-- What a handler is asked to do with a batch. -/
def calls (b : Batch) : List HandlerCall :=
  (if b.changed.isEmpty then [] else [.prepare b.changed]) ++
  b.changed.map .handle ++
  b.removed.map .drop ++
  (if b.ids.isEmpty then [] else [.complete])

end Batch

/-- Something that does what batches ask for. Also a call that fails may have changed it. -/
class BatchHandler (η : Type) where
  perform : η → HandlerCall → Except ServiceError Unit × η

namespace HandlerCall

/-- The error of a drain in which a call failed: what could not be completed is fatal, all else
can be tried again. -/
def failure (e : ServiceError) : HandlerCall → ServiceError
  | .prepare _ => .ofText .processing ("Failed to prepare batch: " ++ e.message)
  | .handle _ => .ofText .processing ("Failed to handle event: " ++ e.message)
  | .drop _ => .ofText .processing ("Failed to handle deleted event: " ++ e.message)
  | .complete => .ofText .indexingFatal ("Failed to complete batch: " ++ e.message)

/-- Makes calls one after the other, up to the first that fails. -/
def performAll {η : Type} [BatchHandler η] (h : η) :
    List HandlerCall → Except ServiceError Unit × η
  | [] => (.ok (), h)
  | call :: rest =>
    match BatchHandler.perform h call with
    | (.ok (), h) => performAll h rest
    | (.error e, h) => (.error (call.failure e), h)

end HandlerCall

/-- The first rows of a batch are distinct in their events. -/
theorem Batch.firstRows_nodup (rows : List QueueRow) :
    ((Batch.firstRows rows).map fun r => r.entry.uuid).Nodup := by
  induction rows with
  | nil => exact List.nodup_nil
  | cons r rest ih =>
    simp only [Batch.firstRows, List.map_cons, List.nodup_cons, List.mem_map, List.mem_filter]
    refine ⟨?_, ih.sublist (List.filter_sublist.map _)⟩
    rintro ⟨s, ⟨_, hs⟩, h⟩
    simp [h] at hs

end EventCatalog
