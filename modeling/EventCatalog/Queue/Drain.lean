import EventCatalog.Metrics.Basic
import EventCatalog.Queue.Batch
import EventCatalog.Queue.Connection

/-!
# Draining a queue

A drain reads the first rows of a queue, lets a handler do what their batch asks for, and then makes
known how long the queue is. It deletes no rows: that is left to the caller, once the batch has been
dealt with. So the rows of a drain that failed are read again by the next one.
-/

namespace EventCatalog

/-- Something that is told the length of the queue after every drain. -/
inductive Observer where
  /-- Keeps what it was told, the latest last. -/
  | log (sizes : List QueueSize)
  /-- Records it in metrics. -/
  | gauges (metrics : Metrics)
  /-- Holds back ingestion. -/
  | throttle (t : Throttle)
deriving Inhabited, Repr

/-- An observer after it was told the length of a queue. -/
def Observer.notice (s : QueueSize) : Observer → Observer
  | log sizes => log (sizes ++ [s])
  | gauges m => gauges (m.recordQueueSize s)
  | throttle t => throttle (t.notice s)

/-- The drain of the queue of one table. -/
structure Drain where
  store : Connection
  observers : List Observer
  /-- The latest of the times, in milliseconds, at which the rows read so far were made. -/
  watermark : Option Int
  /-- The length of the queue that was made known last. -/
  lastSize : Option Nat
deriving Inhabited, Repr

namespace Drain

/-- A drain that has read nothing. -/
def ofStore (store : Connection) (observers : List Observer) : Drain :=
  ⟨store, observers, none, none⟩

/-- The table whose queue is drained. -/
def table (d : Drain) : EventTable := d.store.table

/-- The watermark after rows are read. -/
def advance (watermark : Option Int) (rows : List QueueRow) : Option Int :=
  rows.foldl (fun w r =>
    let ms := r.entry.updateTime.millis
    some (match w with
      | some m => max m ms
      | none => ms)) watermark

/-- The latest time at which rows read so far were made. -/
def lastIndexTime (d : Drain) : Option Instant := d.watermark.bind Instant.ofMillis?

/-- Makes the length of the queue known. -/
def publish (d : Drain) (size limit : Nat) : Drain :=
  let s : QueueSize := ⟨d.table.name, size.toUInt64, limit.toUInt64⟩
  { d with lastSize := some size, observers := d.observers.map (Observer.notice s) }

/-- Reads up to `limit` rows, only those made at a time or before if one is given, and lets the
handler deal with them. The outcome is the numbers of the rows. -/
def run {η : Type} [BatchHandler η] (d : Drain) (h : η) (limit : Nat) (latest : Option Instant) :
    Except ServiceError (List Int) × Drain × η :=
  match d.store.fetch limit latest with
  | (.error e, store) => (.error e, { d with store := store }, h)
  | (.ok rows, store) =>
    let batch := Batch.ofRows rows
    let d := { d with store := store, watermark := advance d.watermark rows }
    match HandlerCall.performAll h batch.calls with
    | (.error e, h) => (.error e, d, h)
    | (.ok (), h) =>
      match d.store.pending with
      | (.error e, store) => (.error e, { d with store := store }, h)
      | (.ok size, store) => (.ok batch.ids, { d with store := store }.publish size limit, h)

/-- Deletes rows that have been dealt with. -/
def deleteEntries (d : Drain) (ids : List Int) : Except ServiceError Nat × Drain :=
  let p := d.store.deleteEntries ids
  (p.1, { d with store := p.2 })

/-- Asks for the length of the queue. -/
def pending (d : Drain) : Except ServiceError Nat × Drain :=
  let p := d.store.pending
  (p.1, { d with store := p.2 })

end Drain

end EventCatalog
