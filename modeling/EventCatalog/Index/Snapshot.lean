import EventCatalog.Index.Segment

/-!
# Snapshots

Readers see the index through snapshots. One snapshot is current; a lease pins the snapshot that is
current when it is taken, and reads from it until it is given back, whatever is published
meanwhile. A snapshot that has been replaced is retired, and is let go with its last lease.
-/

namespace EventCatalog

/-- The contents of an index at one time. -/
structure Snapshot where
  /-- How many snapshots have been published before. -/
  generation : Nat
  segments : List Segment
  /-- How many leases on the snapshot have not been given back. -/
  leases : Nat
  /-- Whether another snapshot has taken its place. -/
  retired : Bool
deriving DecidableEq, Repr, Inhabited

/-- A claim on a snapshot, which it names by its generation. -/
structure Lease where
  generation : Nat
deriving DecidableEq, Repr, Inhabited

/-- The current snapshot, and those before it that are still leased. -/
structure SnapshotSlot where
  current : Snapshot
  replaced : List Snapshot
deriving DecidableEq, Repr, Inhabited

namespace Snapshot

/-- The documents of a snapshot, in the order in which they are searched. -/
def documents (s : Snapshot) : List Document := s.segments.flatMap Segment.live

/-- What tells the contents of snapshots apart. -/
def fingerprint (s : Snapshot) : List (Nat × Option Nat) := s.segments.map Segment.fingerprint

end Snapshot

namespace SnapshotSlot

/-- The slot with its first snapshot. -/
def ofSegments (segments : List Segment) : SnapshotSlot := ⟨⟨0, segments, 0, false⟩, []⟩

/-- Takes a lease on the current snapshot. -/
def acquire (slot : SnapshotSlot) : Lease × SnapshotSlot :=
  (⟨slot.current.generation⟩,
    { slot with current := { slot.current with leases := slot.current.leases + 1 } })

/-- The snapshot that a lease is on. -/
def read (slot : SnapshotSlot) (lease : Lease) : Option Snapshot :=
  if lease.generation = slot.current.generation then some slot.current
  else slot.replaced.find? fun s => s.generation = lease.generation

/-- Gives a lease back. -/
def release (slot : SnapshotSlot) (lease : Lease) : SnapshotSlot :=
  if lease.generation = slot.current.generation then
    { slot with current := { slot.current with leases := slot.current.leases - 1 } }
  else
    { slot with
      replaced := (slot.replaced.map fun s =>
        if s.generation = lease.generation then { s with leases := s.leases - 1 } else s).filter
          fun s => s.leases != 0 }

/-- Makes segments the current snapshot, unless they are those of the current one. Says whether
the snapshot was replaced. -/
def publish (slot : SnapshotSlot) (segments : List Segment) : Bool × SnapshotSlot :=
  if slot.current.fingerprint = segments.map Segment.fingerprint then (false, slot)
  else
    let old := { slot.current with retired := true }
    (true, {
      current := ⟨slot.current.generation + 1, segments, 0, false⟩
      replaced := if old.leases = 0 then slot.replaced else old :: slot.replaced })

/-- The number of leases on the current snapshot. -/
def outstandingLeases (slot : SnapshotSlot) : Nat := slot.current.leases

/-- Reads from the current snapshot under a lease of its own. -/
def reading {α : Type} (slot : SnapshotSlot) (f : Snapshot → α) : α × SnapshotSlot :=
  let p := slot.acquire
  (f p.2.current, p.2.release p.1)

/-- A read leaves the slot as it found it. -/
theorem reading_snd {α : Type} (slot : SnapshotSlot) (f : Snapshot → α) :
    (slot.reading f).2 = slot := by
  simp [reading, acquire, release]

end SnapshotSlot

end EventCatalog
