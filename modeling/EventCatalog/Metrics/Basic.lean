import EventCatalog.Error
import EventCatalog.Queue.Throttle

/-!
# Metrics

What is counted about the queues and their drains, by table. A series begins when something is
first recorded for its table.
-/

namespace EventCatalog

/-- Values by table, in the order of the tables' names. -/
abbrev Series (α : Type) := List (String × α)

namespace Series

/-- Changes the value of a table; a table without one starts from `start`. -/
def update {α : Type} (table : String) (start : α) (f : α → α) : Series α → Series α
  | [] => [(table, f start)]
  | (t, a) :: rest =>
    if table < t then (table, f start) :: (t, a) :: rest
    else if table = t then (t, f a) :: rest
    else (t, a) :: update table start f rest

/-- The value of a table. -/
def get? {α : Type} (table : String) (s : Series α) : Option α := List.lookup table s

end Series

/-- How often durations fell below each of some bounds. -/
structure Histogram where
  /-- How many durations fell between a bound and the one before it, in the order of the bounds. -/
  counts : List UInt64
  count : UInt64
  /-- All durations together. -/
  sum : Float
deriving Inhabited, Repr

namespace Histogram

/-- The bounds in seconds. -/
def bounds : List Float := [0.001, 0.005, 0.01, 0.05, 0.1, 0.5, 1, 5, 10]

/-- A histogram without durations. -/
def empty : Histogram := ⟨bounds.map fun _ => 0, 0, 0⟩

/-- Counts a duration under the first of the bounds that it does not exceed. -/
def countUnder (seconds : Float) : List Float → List UInt64 → List UInt64
  | b :: bs, n :: ns => if seconds ≤ b then (n + 1) :: ns else n :: countUnder seconds bs ns
  | _, ns => ns

/-- Records a duration. -/
def observe (h : Histogram) (seconds : Float) : Histogram where
  counts := countUnder seconds bounds h.counts
  count := h.count + 1
  sum := h.sum + seconds

/-- How many durations do not exceed each of the bounds. -/
def cumulated (h : Histogram) : List UInt64 :=
  let sums := h.counts.foldl (fun (acc : UInt64 × List UInt64) n =>
    (acc.1 + n, acc.2 ++ [acc.1 + n])) (0, [])
  sums.2

end Histogram

/-- All metrics. -/
structure Metrics where
  queueSize : Series UInt64
  batchLimit : Series UInt64
  rowsDrained : Series UInt64
  eventsIndexed : Series UInt64
  eventsDeleted : Series UInt64
  cycleFailures : Series UInt64
  drainSeconds : Series Histogram
deriving Inhabited, Repr

namespace Metrics

/-- Metrics before anything is recorded. -/
def empty : Metrics := ⟨[], [], [], [], [], [], []⟩

/-- The greatest value of a gauge. -/
def gaugeLimit : UInt64 := 9223372036854775807

/-- Records how long a queue is. -/
def recordQueueSize (m : Metrics) (s : QueueSize) : Metrics := { m with
  queueSize := m.queueSize.update s.table 0 fun _ => min s.size gaugeLimit
  batchLimit := m.batchLimit.update s.table 0 fun _ => min s.limit gaugeLimit }

/-- Records a cycle: how many rows it read, what it did with them, and how long it took. -/
def recordCycle (m : Metrics) (table : String) (rows indexed deleted : UInt64) (seconds : Float) :
    Metrics := { m with
  rowsDrained := m.rowsDrained.update table 0 (· + rows)
  eventsIndexed := m.eventsIndexed.update table 0 (· + indexed)
  eventsDeleted := m.eventsDeleted.update table 0 (· + deleted)
  drainSeconds := m.drainSeconds.update table .empty fun h => h.observe seconds }

/-- Records a cycle that failed. -/
def recordFailure (m : Metrics) (table : String) : Metrics := { m with
  cycleFailures := m.cycleFailures.update table 0 (· + 1) }

end Metrics

/-- Where metrics are registered, once. -/
structure MetricsRegistry where
  metrics : Option Metrics
deriving Inhabited, Repr

namespace MetricsRegistry

/-- A registry without metrics. -/
def empty : MetricsRegistry := ⟨none⟩

/-- Registers the metrics of a pipeline. -/
def register (r : MetricsRegistry) : Except ServiceError MetricsRegistry :=
  match r.metrics with
  | none => .ok ⟨some .empty⟩
  | some _ =>
    .error (.ofText .internal "metrics: Duplicate metrics collector registration attempted")

end MetricsRegistry

end EventCatalog
