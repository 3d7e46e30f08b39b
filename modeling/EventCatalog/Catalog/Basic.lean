import EventCatalog.Config.Search
import EventCatalog.Index.Snapshot
import EventCatalog.Index.Writer
import EventCatalog.Search.Translate
import EventCatalog.Time.Span

/-!
# The catalog

A `Catalog` is an index that is open: one writer stages changes and commits them, readers see the
snapshot that was published last. A change is visible once it is committed, and a commit that
changes nothing publishes nothing.

Every operation that changes the catalog yields the catalog as it is afterwards, whether it
succeeded or not. The time of day is an argument where it matters, and so is how the documents of a commit fall to
segments (`Occasion`).
-/

namespace EventCatalog

/-- What a commit finds: the time of day, and how its documents are dealt out to segments. -/
structure Occasion where
  time : Instant
  deal : Deal
deriving DecidableEq, Repr, Inhabited

/-- At a time, with all documents in one segment. -/
instance : Coe Instant Occasion := ⟨fun now => ⟨now, .together⟩⟩

/-- What lies in the directory of an index. -/
inductive Directory where
  | absent
  /-- A file in place of the directory. -/
  | file
  /-- Something that is no index. -/
  | unreadable
  | index (ix : Index)
deriving Repr, Inhabited

/-- An open index. -/
structure Catalog where
  name : String
  config : SearchConfig
  /-- What has been committed. -/
  index : Index
  /-- What has been staged since. -/
  writer : Writer
  slot : SnapshotSlot
  /-- How many events have been staged since the segments were merged. -/
  sinceOptimize : Nat
  lastCommit : Option Instant
deriving Repr, Inhabited

/-- What the catalog tells about itself. -/
structure CatalogStats where
  name : String
  documents : Nat
  segments : Nat
  generation : Nat
  leases : Nat
  sinceOptimize : Nat
  lastCommit : Option Instant
deriving DecidableEq, Repr

namespace Catalog

/-- The outcome of an operation, and the catalog as it is afterwards. -/
abbrev Outcome (α : Type) := Except CatalogError α × Catalog

/-! ### Opening -/

/-- Refuses a configuration out of range. -/
def validateConfig (config : SearchConfig) : Except CatalogError Unit :=
  if config.rejections.isEmpty then .ok ()
  else .error ⟨.invalidConfiguration, .rejected config.rejections⟩

/-- Opens an index that has been found. `locked` says whether another catalog has it open. -/
def ofIndex (name : String) (config : SearchConfig) (ix : Index) (locked : Bool) :
    Except CatalogError Catalog :=
  match ix.schema.missingEventField? with
  | some field =>
    .error (.ofText .opening
      ("Index schema is not an event schema: The field does not exist: '" ++ field ++ "'"))
  | none =>
    if locked || config.writerHeapSize / config.effectiveThreads ≥ heapPerThreadLimit then
      .error (.ofText .opening "Failed to create writer")
    else
      let ix := { ix with segments := ix.segments.map fun s => { s with reached := 0 } }
      .ok {
        name := name
        config := config
        index := ix
        writer := .ofStamp ix.stamp
        slot := .ofSegments ix.segments
        sinceOptimize := 0
        lastCommit := none }

/-- Opens the index of a directory, which is made if there is none. -/
def openDirectory (name : String) (config : SearchConfig) (directory : Directory)
    (locked : Bool) : Except CatalogError Catalog := do
  validateConfig config
  match directory with
  | .absent => ofIndex name config (.empty .events) locked
  | .file => throw (.ofText .opening "Failed to create index directory")
  | .unreadable => throw (.ofText .opening "Failed to open existing index")
  | .index ix => ofIndex name config ix locked

/-- Makes an index that is not kept. -/
def create (name : String) (config : SearchConfig) : Except CatalogError Catalog := do
  validateConfig config
  ofIndex name config (.empty .events) false

/-- What lies in the directory once the catalog is closed: what has been committed. -/
def close (c : Catalog) : Directory := .index c.index

/-! ### Committing -/

/-- Merges the segments if there is anything to merge. -/
def consolidate (ix : Index) (w : Writer) : Index × Writer :=
  if ix.isScattered then (ix.consolidate, w.tick) else (ix, w)

/-- Commits what is staged, merges the segments if that is asked for or due, and publishes what has
come of it. -/
def commit (c : Catalog) (now : Occasion) (force : Bool) : Outcome Unit :=
  if c.writer.canCommit c.index.schema then
    let written := c.writer.commit c.index now.deal
    let merge := force || c.config.optimizeThreshold ≤ c.sinceOptimize
    let p := if merge then consolidate written.1 written.2 else written
    (.ok (), { c with
      index := p.1
      writer := p.2
      slot := (c.slot.publish p.1.segments).2
      sinceOptimize := if merge then 0 else c.sinceOptimize
      lastCommit := some now.time })
  else
    (.error (.ofText .indexing "Failed to commit"), { c with writer := c.writer.stall })

/-! ### Changes -/

/-- The query of an event by its identifier. -/
def keyQuery (uuid : Uuid) : Query := .term Field.uuid (.text uuid.render)

/-- Stages the removal of an event; nothing if identifiers cannot be looked up. -/
def stageRemove (c : Catalog) (uuid : Uuid) : Catalog :=
  if (keyQuery uuid).isRunnable c.index.schema then
    { c with writer := c.writer.remove (keyQuery uuid) }
  else { c with writer := c.writer.tick }

/-- Stages an event in place of an earlier one with its identifier. Readers see it after the next
commit. -/
def stage (c : Catalog) (e : Event) : Catalog :=
  let c := c.stageRemove e.uuid
  { c with
    writer := c.writer.add (.ofEvent e)
    sinceOptimize := c.sinceOptimize + 1 }

/-- Stages events one after the other. -/
def stageAll (c : Catalog) (events : List Event) : Catalog := events.foldl stage c

/-- The outcome of a commit with a value of its own. -/
def returning {α : Type} (a : α) (o : Outcome Unit) : Outcome α := (o.1.map fun _ => a, o.2)

/-- Stages and commits an event. -/
def add (c : Catalog) (now : Instant) (e : Event) : Outcome Unit := (c.stage e).commit now false

/-- Stages and commits events; the outcome is their number. -/
def addMany (c : Catalog) (now : Instant) (events : List Event) : Outcome Nat :=
  returning events.length ((c.stageAll events).commit now false)

/-- Removes an event. -/
def delete (c : Catalog) (now : Instant) (uuid : Uuid) : Outcome Unit :=
  (c.stageRemove uuid).commit now false

/-- Removes events and merges the segments; the outcome is the number of identifiers. -/
def deleteMany (c : Catalog) (now : Occasion) (uuids : List Uuid) : Outcome Nat :=
  if uuids.isEmpty then (.ok 0, c)
  else returning uuids.length ((uuids.foldl stageRemove c).commit now true)

/-- Removes what a query selects and merges the segments. -/
def deleteSelected (c : Catalog) (now : Instant) (q : Query) : Outcome Unit :=
  if q.isRunnable c.index.schema then
    { c with writer := c.writer.remove q }.commit now true
  else (.error (.ofText .deleting "Failed to delete"), c)

/-- Removes the events that a filter selects and merges the segments. -/
def deleteByFilter (c : Catalog) (now : Instant) (f : Filter) : Outcome Unit :=
  match Query.ofFilter c.index.schema (some f) with
  | .error e => (.error e, c)
  | .ok q => c.deleteSelected now q

/-- Removes the events that were last seen so long ago or earlier, and merges the segments. If that is
before all times, there are none. -/
def purgeOlder (c : Catalog) (now : Instant) (age : Duration) : Outcome Unit :=
  if age.nanos < 0 then
    (.error (.ofText .invalidArgument
      ("purge duration must not be negative: " ++ age.render)), c)
  else match now.before? age with
    | none => (.ok (), c)
    | some cutoff => c.deleteSelected now (.range Field.lastSeen none (some cutoff.millis))

/-- Removes the events that were last seen a span of time ago or earlier. -/
def purge (c : Catalog) (now : Instant) (olderThan : Span) : Outcome Unit :=
  c.purgeOlder now olderThan.duration

/-- Drops everything committed, commits what is staged, and merges the segments. The writer starts
its numbers afresh. -/
def clear (c : Catalog) (now : Instant) : Outcome Unit :=
  { c with index := c.index.clear, writer := c.writer.restart }.commit now true

/-- Commits and merges the segments. -/
def optimize (c : Catalog) (now : Instant) : Outcome Unit := c.commit now true

end Catalog

end EventCatalog
