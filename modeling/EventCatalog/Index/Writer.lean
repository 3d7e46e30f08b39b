import EventCatalog.Index.Basic

/-!
# The writer

A `Writer` collects removals and additions until they are committed. It numbers everything that it
does, one after the other. A removal concerns the documents with smaller numbers: all of the
segments that are there, and of the segment being written those that were added before it.

The removals stand in one queue for as long as the writer is open. Every segment carries them out
in their order, up to the first whose number is above that of the commit; there it waits, and goes
on with a later commit. As long as numbers only rise, a commit never leaves a removal behind.
Emptying the index sets the numbers back to where they were when the writer was opened
(`Writer.restart`), while the queue stays; so a segment that is written afterwards may wait before
an old removal with a larger number, and take up late, on all of its documents, what stands behind.

With every commit the segments are arranged by their size. The order of equally large ones is a matter of
the writer alone (`Writer.goesOn`), so the first commit after an index has been opened may change it.

A writer may have several threads, and each of them writes a segment of the documents that it gets, or more than
one if it runs out of memory. How the documents of a commit fall to segments is not up to the writer, so it is
an argument of the commit (`Deal`). Where none is given they all go into one segment, as they do with a single thread
that has the memory for them.
-/

namespace EventCatalog

/-- A staged removal of what a query selects. -/
structure Removal where
  stamp : Nat
  query : Query
deriving Repr, Inhabited

/-- A staged document. -/
structure Addition where
  stamp : Nat
  document : Document
deriving Repr, Inhabited

/-- How the documents of a commit are dealt out to the segments that are written. -/
inductive Deal where
  /-- All of them to one segment. -/
  | together
  /-- Each to the segment of its number; the numbers are listed in the order of the documents, and zero if they run
  out. -/
  | bySlot (slots : List Nat)
deriving DecidableEq, Repr, Inhabited

/-- The documents of each segment. -/
def Deal.groups {α : Type} : Deal → List α → List (List α)
  | together, l => [l]
  | bySlot slots, l =>
    let dealt := l.zipIdx.map fun p => (slots.getD p.2 0, p.1)
    let taken := (List.range (slots.foldr max 0 + 1)).map fun slot =>
      (dealt.filter fun p => p.1 == slot).map Prod.snd
    taken.filter fun group => !group.isEmpty

/-- The writer of an open index. -/
structure Writer where
  /-- The number from which the writer started. -/
  base : Nat
  /-- The number of what is done next. -/
  next : Nat
  /-- All removals since the writer was opened. -/
  removals : List Removal
  /-- How many of them have been looked at by any segment. -/
  seen : Nat
  /-- The place in the queue from which the segment being written carries out removals. -/
  start : Nat
  /-- The documents of the segment being written. -/
  additions : List Addition
  /-- Whether a document that did not fit the schema has broken the writer, which then drops all
  further documents. -/
  stalled : Bool
deriving Repr, Inhabited

namespace Writer

/-- The writer of an index whose last commit has the number `stamp`. -/
def ofStamp (stamp : Nat) : Writer := ⟨stamp, stamp, [], 0, 0, [], false⟩

/-- Whether the writer goes on with an index that others have written to. It then puts the newest of equally
large segments first, else the oldest. -/
def goesOn (w : Writer) : Bool := w.base != 0

/-- Takes the next number for something that leaves no trace. -/
def tick (w : Writer) : Writer := { w with next := w.next + 1 }

/-- Notes that a segment has looked at the queue at a place. One that gets to the end of what has
been seen sees the whole queue. -/
def look (w : Writer) (place : Nat) : Writer :=
  if w.seen ≤ place then { w with seen := w.removals.length } else w

/-- Stages a removal. -/
def remove (w : Writer) (q : Query) : Writer :=
  { w with removals := w.removals ++ [⟨w.next, q⟩], next := w.next + 1 }

/-- Stages a document. The first one of a segment passes over the removals with smaller numbers. -/
def add (w : Writer) (d : Document) : Writer :=
  if w.stalled then w.tick
  else
    let w := if w.additions.isEmpty then
        let passed := (w.removals.drop w.start).takeWhile fun r => r.stamp < w.next
        { w with start := w.start + passed.length }.look (w.start + passed.length)
      else w
    { w with additions := w.additions ++ [⟨w.next, d⟩], next := w.next + 1 }

/-- Sets the numbers back to where they started. -/
def restart (w : Writer) : Writer := { w with next := w.base }

/-- The removals from a place on that can be carried out up to a number. -/
def due (w : Writer) (place limit : Nat) : List Removal :=
  (w.removals.drop place).takeWhile fun r => r.stamp ≤ limit

/-- Strikes out what the removals select among documents that were added before them. -/
def strikeEarlier (schema : Schema) (removals : List Removal) (a : Addition) : Entry :=
  ⟨a.document, removals.all fun r => !(a.stamp < r.stamp && r.query.selects schema a.document)⟩

/-- The segment of the staged documents, and the writer without them. -/
def write (w : Writer) (schema : Schema) (id : Nat) : Segment × Writer :=
  let limit := w.additions.foldl (fun n a => max n a.stamp) 0
  let removals := w.due w.start limit
  let reached := w.start + removals.length
  ({ id := id
     entries := w.additions.map (strikeEarlier schema removals)
     deleteStamp := none
     reached := reached },
    { w with additions := [] }.look reached)

/-- Carries out on a segment the removals that are due by a commit. The segment is stamped if
documents are struck out that were not when it was last stamped. -/
def carryOut (w : Writer) (schema : Schema) (commit : Nat) (s : Segment) : Segment :=
  let removals := w.due s.reached commit
  let entries := Segment.strike (fun d => removals.any fun r => r.query.selects schema d) s.entries
  let deleted := fun (es : List Entry) => es.countP fun e => !e.live
  { s with
    entries := entries
    deleteStamp :=
      if deleted entries = 0 || (s.deleteStamp.isSome && deleted entries = deleted s.entries) then
        s.deleteStamp
      else some commit
    reached := s.reached + removals.length }

/-- Whether the staged documents fit the schema. -/
def canCommit (w : Writer) (schema : Schema) : Bool :=
  w.additions.all fun a => Index.accepts schema a.document

/-- Gives up the staged documents. -/
def stall (w : Writer) : Writer := { w with additions := [], stalled := true }

/-- Writes groups of documents into a segment each. Writing a segment takes a number. -/
def writeAll (w : Writer) (schema : Schema) (id : Nat) : List (List Addition) → List Segment × Writer
  | [] => ([], { w with additions := [] })
  | group :: rest =>
    let p := { w with additions := group }.write schema id
    let q := p.2.tick.writeAll schema (id + 1) rest
    (p.1 :: q.1, q.2)

/-- Writes the staged documents, if there are any, into segments behind those of the index. -/
def flush (w : Writer) (ix : Index) (deal : Deal := .together) : List Segment × Writer :=
  if w.additions.isEmpty then (ix.segments, w)
  else
    let p := w.writeAll ix.schema ix.nextId (deal.groups w.additions)
    (ix.segments ++ p.1, p.2)

/-- Commits: the staged documents become segments, and the removals are carried out on all
segments. Writing a segment and committing take a number each beside that of the commit itself. -/
def commit (w : Writer) (ix : Index) (deal : Deal := .together) : Index × Writer :=
  let flushed := w.flush ix deal
  let written := (deal.groups w.additions).length
  let stamp := flushed.2.next
  let w := { flushed.2 with start := flushed.2.seen }.tick
  let segments := flushed.1.map (w.carryOut ix.schema stamp)
  ({ ix with
      segments := Index.arrange w.goesOn segments
      nextId := ix.nextId + written
      stamp := stamp },
    (segments.foldl (fun w s => w.look s.reached) w).tick)

end Writer

end EventCatalog
