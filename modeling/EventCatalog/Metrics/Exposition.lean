import EventCatalog.Decimal.Notation
import EventCatalog.Metrics.Basic

/-!
# Exposing metrics

Metrics are read by a monitoring system as lines of text: for every family a line of help, a line
with its type, and a line for every sample. Families stand in the order of their names; one without
series is left out.
-/

namespace EventCatalog.Metrics

/-- The written form of the value of a label. -/
def escapeLabel (s : String) : String :=
  String.ofList (s.toList.flatMap fun c =>
    match c with
    | '\\' => ['\\', '\\']
    | '\n' => ['\\', 'n']
    | '"' => ['\\', '"']
    | c => [c])

/-- A label with its value. -/
def label (name value : String) : String := name ++ "=\"" ++ escapeLabel value ++ "\""

/-- A line with a value. -/
def sampleLine (name : String) (labels : List String) (value : Float) : String :=
  name ++ "\x7b" ++ String.intercalate "," labels ++ "\x7d " ++ Decimal.plain value ++ "\n"

/-- A family of series. -/
structure Family where
  name : String
  help : String
  type : String
  /-- The lines of all its samples. -/
  lines : List String

namespace Family

/-- The name of a family, with the name of the program in front. -/
def fullName (name : String) : String := "event_indexer_" ++ name

/-- A family with one value for each table. -/
def ofSeries (name help type : String) (s : Series UInt64) : Family :=
  ⟨fullName name, help, type,
    s.map fun p => sampleLine (fullName name) [label "table" p.1] p.2.toFloat⟩

/-- The lines of a histogram. -/
def histogramLines (name table : String) (h : Histogram) : List String :=
  let bucket := fun (bound : String) (n : UInt64) =>
    sampleLine (name ++ "_bucket") [label "table" table, label "le" bound] n.toFloat
  ((Histogram.bounds.zip h.cumulated).map fun p => bucket (Decimal.plain p.1) p.2) ++
    [bucket "+Inf" h.count,
      sampleLine (name ++ "_sum") [label "table" table] h.sum,
      sampleLine (name ++ "_count") [label "table" table] h.count.toFloat]

/-- A family with a histogram for each table. -/
def ofHistograms (name help : String) (s : Series Histogram) : Family :=
  ⟨fullName name, help, "histogram", s.flatMap fun p => histogramLines (fullName name) p.1 p.2⟩

/-- The text of a family. -/
def render (f : Family) : String :=
  if f.lines.isEmpty then ""
  else
    "# HELP " ++ f.name ++ " " ++ f.help ++ "\n# TYPE " ++ f.name ++ " " ++ f.type ++ "\n" ++
      String.join f.lines

end Family

/-- All families, in the order of their names. -/
def families (m : Metrics) : List Family := [
  .ofSeries "cycle_failures_total" "Indexing cycles that failed" "counter" m.cycleFailures,
  .ofHistograms "drain_duration_seconds" "Drain cycle duration in seconds" m.drainSeconds,
  .ofSeries "events_deleted_total" "Event summaries removed from the index" "counter"
    m.eventsDeleted,
  .ofSeries "events_indexed_total" "Event summaries staged into the index" "counter"
    m.eventsIndexed,
  .ofSeries "index_batch_limit" "Batch limit of the last drain" "gauge" m.batchLimit,
  .ofSeries "index_queue_size" "Pending rows in the index queue" "gauge" m.queueSize,
  .ofSeries "rows_drained_total" "Queue rows read by drains" "counter" m.rowsDrained]

/-- The text of all metrics. -/
def render (m : Metrics) : String := String.join (m.families.map Family.render)

end EventCatalog.Metrics
