import EventCatalog.Catalog.Basic
import EventCatalog.Index.Collect
import EventCatalog.Search.Request

/-!
# Reading from the catalog

Reads work on the snapshot that is current when they begin, under a lease that ends with them, and
leave the catalog as it is.
-/

namespace EventCatalog.Catalog

/-- What a read finds in the current snapshot. -/
def reading {α : Type} (c : Catalog) (f : Snapshot → α) : α := (c.slot.reading f).1

/-- The event of a stored document. -/
def eventOf (d : Document) : Except CatalogError Event :=
  match d.event with
  | .ok e => .ok e
  | .error e => .error (.ofDecoding e)

/-- The page of a snapshot that a request asks for, of the events that its query selects. -/
def page (schema : Schema) (greatest : Nat) (r : Request) (q : Query) (s : Snapshot) :
    Except CatalogError Page := do
  let window := r.window greatest
  if !q.isRunnable schema then throw (.ofText .searching "Failed to list events")
  let selected := s.matching schema q
  let top := (Snapshot.sorted schema r.effectiveSort selected).take
    (r.collected greatest s.documents.length)
  let events ← (top.drop r.effectiveOffset).mapM eventOf
  return {
    events := events
    total := selected.length
    limit := r.effectiveLimit greatest
    nextOffset := if selected.length > window then some (window + 1) else none }

/-- The page of events that a request asks for. -/
def list (c : Catalog) (r : Request) : Except CatalogError Page := do
  let q ← Query.ofFilter c.index.schema r.filter
  c.reading (page c.index.schema c.config.maxResults r q)

/-- The event with an identifier. -/
def find (c : Catalog) (uuid : Uuid) : Except CatalogError (Option Event) :=
  let q := keyQuery uuid
  if !q.isRunnable c.index.schema then
    .error (.ofText .searching ("Failed to find " ++ uuid.render))
  else c.reading fun s =>
    match s.documents.find? fun d => q.selects c.index.schema d with
    | some d => (eventOf d).map some
    | none => .ok none

/-- The number of events that clauses select. -/
def countSelected (c : Catalog) (clauses : List Clause) : Except CatalogError Nat := do
  let q ← Query.ofClauses c.index.schema clauses
  if !q.isRunnable c.index.schema then throw (.ofText .engine "the query cannot be run")
  return c.reading fun s => (s.matching c.index.schema q).length

/-- The query of the open events with a tag. -/
def openEventsTagged (schema : Schema) (tag : String) : Except CatalogError Query :=
  Query.ofClauses schema [
    .exactSet Field.tag [tag] .any,
    .codes Field.status (Status.openStatuses.map fun s => (s.code : Int))]

/-- Collects something of the open events with each of the tags, in the order of the tags. The
first failure ends it; a tag may have nothing. -/
def collectByTag {α : Type} (c : Catalog) (failure : String)
    (collect : Snapshot → Query → Option (Option α)) :
    List String → Except CatalogError (List (String × α))
  | [] => .ok []
  | tag :: rest => do
    let q ← openEventsTagged c.index.schema tag
    match c.reading fun s => collect s q with
    | none => throw (.ofText .searching (failure ++ tag))
    | some none => collectByTag c failure collect rest
    | some (some a) =>
      let more ← collectByTag c failure collect rest
      return (tag, a) :: more

/-- The numbers of open events by severity, for each of the tags that has any. -/
def countSeverities (c : Catalog) (tags : List String) :
    Except CatalogError (List (String × SeverityCounts)) :=
  collectByTag c "Failed to count "
    (fun s q => (s.severityCounts? c.index.schema q).map fun counts =>
      if counts.isEmpty then none else some counts) tags.eraseDups

/-- The worst severity of open events, for each of the tags that has any. -/
def worstSeverities (c : Catalog) (tags : List String) :
    Except CatalogError (List (String × Severity)) :=
  collectByTag c "Failed to rank " (fun s q => s.worstSeverity? c.index.schema q)
    tags.eraseDups

/-- What the catalog tells about itself. -/
def stats (c : Catalog) : CatalogStats where
  name := c.name
  documents := c.reading fun s => s.documents.length
  segments := c.reading fun s => s.segments.length
  generation := c.reading Snapshot.generation
  leases := c.slot.outstandingLeases
  sinceOptimize := c.sinceOptimize
  lastCommit := c.lastCommit

end EventCatalog.Catalog
