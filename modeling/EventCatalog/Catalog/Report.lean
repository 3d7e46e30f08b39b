import EventCatalog.Catalog.Read

/-!
# Reports of the catalog

What the catalog tells about itself and its events, as JSON.
-/

namespace EventCatalog

/-- The statistics of a catalog as JSON. -/
def CatalogStats.toJson (s : CatalogStats) : Json := .obj [
  ("name", .str s.name),
  ("total_documents", .int s.documents),
  ("num_segments", .int s.segments),
  ("snapshot_generation", .int s.generation),
  ("outstanding_leases", .int s.leases),
  ("events_since_optimize", .int s.sinceOptimize),
  ("last_commit", Json.ofOption Instant.toJson s.lastCommit)]

/-- The numbers of events by severity as JSON. -/
def SeverityCounts.toJson (counts : SeverityCounts) : Json :=
  .obj (counts.map fun p => (p.1.name, .int p.2))

/-- What was found for each of some tags, as JSON. -/
def reportByTag {α : Type} (f : α → Json) (found : List (String × α)) : Json :=
  .obj (found.map fun p => (p.1, f p.2))

end EventCatalog
