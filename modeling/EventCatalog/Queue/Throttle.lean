import EventCatalog.Json.Decode
import EventCatalog.Queue.Table

/-!
# Holding back ingestion

After every drain the length of the queue is made known. While the queue of the recent events is
longer than a threshold, ingestion is asked to pause between messages, until indexing has caught up.
-/

namespace EventCatalog

/-- How long a queue was after a drain. -/
structure QueueSize where
  table : String
  size : UInt64
  /-- How many rows the drain was allowed to read. -/
  limit : UInt64
deriving DecidableEq, Inhabited, Repr

namespace QueueSize

/-- The length of a queue as JSON. -/
def toJson (s : QueueSize) : Json := .obj [
  ("table_name", .str s.table),
  ("queue_size", .int s.size.toNat),
  ("limit", .int s.limit.toNat)]

/-- Decodes the length of a queue. -/
def decoder : Json.Decoder QueueSize :=
  (QueueSize.mk <$> Json.Record.required "table_name" Json.text
    <*> Json.Record.required "queue_size" (fun v => (Json.nat64 v).map Nat.toUInt64)
    <*> Json.Record.required "limit" (fun v => (Json.size v).map Nat.toUInt64)).decode
      "struct QueueSizeEvent"

end QueueSize

/-- Whether ingestion is held back. -/
structure Throttle where
  /-- The length above which ingestion is held back; zero leaves it to the limit of the drain. -/
  threshold : UInt64
  /-- The pause between two messages. -/
  delayMillis : UInt64
  engaged : Bool
deriving DecidableEq, Inhabited, Repr

namespace Throttle

/-- A throttle that does not hold back yet. -/
def ofThreshold (threshold delayMillis : UInt64) : Throttle := ⟨threshold, delayMillis, false⟩

/-- The threshold that holds for a drain with a limit: the set one, else twice the limit, where a
limit below 100 counts as 100. -/
def thresholdFor (t : Throttle) (limit : UInt64) : UInt64 :=
  if t.threshold = 0 then max limit 100 * 2 else t.threshold

/-- Takes note of the length of a queue. Only tables of recent events matter. -/
def notice (t : Throttle) (s : QueueSize) : Throttle :=
  if s.table.startsWith EventTable.summaryName then
    { t with engaged := t.thresholdFor s.limit < s.size }
  else t

/-- The pause that ingestion is asked for. -/
def delay? (t : Throttle) : Option UInt64 := if t.engaged then some t.delayMillis else none

end Throttle

end EventCatalog
