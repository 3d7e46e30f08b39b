import EventCatalog.Event.Basic

/-!
# An event table and its queue

The system of record holds events in tables. Every change of a table appends an entry to the queue
of that table, which says that something about an event changed, but not what: an entry is joined
with the table when it is fetched (`EventTable.join`). An entry stays until it is deleted.

The archive is partitioned by the time at which events were last seen. There an entry records that
time, and finds its event only while it is still the same.
-/

namespace EventCatalog

/-- Says that an event was changed or removed. -/
structure QueueEntry where
  /-- Entries are numbered in the order in which they are made. -/
  id : Int
  uuid : Uuid
  /-- When the change was made. -/
  updateTime : Instant
  /-- When the event was last seen, if the table is partitioned by that. -/
  lastSeen : Option Instant
deriving DecidableEq, Inhabited, Repr

/-- An entry with the event that it finds in the table. -/
structure QueueRow where
  entry : QueueEntry
  event : Option Event
deriving DecidableEq, Inhabited, Repr

/-- A table of events and its queue. -/
structure EventTable where
  name : String
  /-- Whether the table is partitioned by the time of last sight. -/
  isArchive : Bool
  /-- The events, no two of them with one identifier. -/
  events : List Event
  /-- The queue, in the order of the numbers. -/
  queue : List QueueEntry
  nextId : Int
deriving Inhabited, Repr

namespace EventTable

/-- The name of the queue of a table. -/
def queueName (table : String) : String := table ++ "_index_queue"

/-- The name of the table of recent events. -/
def summaryName : String := "event_summary"

/-- The name of the table of old events. -/
def archiveName : String := "event_archive"

/-- A table without events. -/
def empty (name : String) (isArchive : Bool) : EventTable := ⟨name, isArchive, [], [], 1⟩

/-- The event with an identifier. -/
def get? (t : EventTable) (uuid : Uuid) : Option Event := t.events.find? fun e => e.uuid == uuid

/-- Appends an entry to the queue; the result names its number. -/
def enqueue (t : EventTable) (uuid : Uuid) (updateTime : Instant) (lastSeen : Option Instant) :
    Int × EventTable :=
  (t.nextId, { t with
    queue := t.queue ++ [⟨t.nextId, uuid, updateTime, lastSeen⟩]
    nextId := t.nextId + 1 })

/-- What an entry records about the time of last sight. -/
def recordedSight (t : EventTable) (e : Event) : Option Instant :=
  if t.isArchive then some e.lastSeen else none

/-- The events but the one with an identifier. -/
def eventsWithout (t : EventTable) (uuid : Uuid) : List Event :=
  t.events.filter fun e => e.uuid != uuid

/-- Puts an event in place of an earlier one with its identifier. -/
def upsert (t : EventTable) (e : Event) : Int × EventTable :=
  { t with events := t.eventsWithout e.uuid ++ [e] }.enqueue e.uuid e.updateTime (t.recordedSight e)

/-- Removes an event, if there is one. -/
def remove (t : EventTable) (now : Instant) (uuid : Uuid) : Option Int × EventTable :=
  match t.get? uuid with
  | none => (none, t)
  | some e =>
    let p := { t with events := t.eventsWithout uuid }.enqueue uuid now (t.recordedSight e)
    (some p.1, p.2)

/-- The event that an entry finds. -/
def join (t : EventTable) (entry : QueueEntry) : Option Event :=
  (t.get? entry.uuid).filter fun e => !t.isArchive || entry.lastSeen == some e.lastSeen

/-- Whether an entry was made at a time or before. -/
def isDue (entry : QueueEntry) : Option Instant → Bool
  | none => true
  | some latest => entry.updateTime ≤ latest

/-- The first entries, only those made at a time or before if one is given, each with its event. -/
def fetch (t : EventTable) (limit : Nat) (latest : Option Instant) : List QueueRow :=
  ((t.queue.filter fun q => isDue q latest).take limit).map fun q => ⟨q, t.join q⟩

/-- The number of entries in the queue. -/
def pending (t : EventTable) : Nat := t.queue.length

/-- The numbers of the entries in the queue. -/
def queuedIds (t : EventTable) : List Int := t.queue.map QueueEntry.id

/-- Deletes entries by number; the result says how many there were. -/
def deleteEntries (t : EventTable) (ids : List Int) : Nat × EventTable :=
  let kept := t.queue.filter fun q => !ids.contains q.id
  (t.queue.length - kept.length, { t with queue := kept })

end EventTable

end EventCatalog
