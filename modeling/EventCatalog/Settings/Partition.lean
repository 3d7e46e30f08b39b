import EventCatalog.Error
import EventCatalog.Text.Blank

/-!
# Partitions

The tables of archived events and of event occurrences are partitioned by time. How long a table
can hold its rows follows from the time that one partition spans, since a table has at most
`maxPartitions` of them. All arithmetic is on 64-bit integers and saturates.
-/

namespace EventCatalog

/-- The unit of the time that a partition spans. -/
inductive PartitionUnit where
  | minutes
  | hours
  | days
deriving DecidableEq, Repr, Inhabited

namespace PartitionUnit

/-- All units, the shortest first. -/
def all : List PartitionUnit := [minutes, hours, days]

/-- The written name. -/
def name : PartitionUnit → String
  | minutes => "MINUTES"
  | hours => "HOURS"
  | days => "DAYS"

/-- The units by their names. -/
def named : List (String × PartitionUnit) := all.map fun u => (u.name, u)

/-- The unit with a name, whose ASCII letters may be of either case. -/
def ofName? (s : String) : Option PartitionUnit :=
  all.find? fun u => u.name = s.map Char.toUpper

instance : ToString PartitionUnit := ⟨name⟩

/-- A unit as JSON: its name. -/
def toJson (u : PartitionUnit) : Json := .str u.name

/-- Decodes a unit. -/
def decoder : Json.Decoder PartitionUnit := Json.variant named

/-- The minutes in one unit. -/
def minutesPer : PartitionUnit → Int
  | minutes => 1
  | hours => 60
  | days => 1440

/-- The minutes in a number of units, or the integer nearest to it. -/
def toMinutes (u : PartitionUnit) (amount : Int64) : Int64 :=
  Int64.ofIntClamp (amount.toInt * u.minutesPer)

end PartitionUnit

/-- The largest number of partitions of one table. -/
def maxPartitions : Int := 1000

/-- How one table is partitioned. -/
structure PartitionTable where
  tableName : String
  /-- The time that a partition spans, in units. -/
  duration : Int64
  unit : PartitionUnit
  /-- The partitions made for the past when the table is set up. -/
  initialPast : Int64
  /-- The partitions kept ahead of the current time. -/
  future : Int64
deriving DecidableEq, Repr, Inhabited

namespace PartitionTable

/-- Refuses a table without a name, a span that is not positive, and numbers of partitions that are
negative or both zero. -/
def validate (t : PartitionTable) : Except ServiceError Unit :=
  let refuse := fun s => Except.error (ServiceError.ofText .invalidArgument s)
  if (Text.trim t.tableName.toList).isEmpty then refuse "partition table name must not be empty"
  else if t.duration ≤ 0 then
    refuse ("partition duration of " ++ t.tableName ++ " must be positive")
  else if t.initialPast < 0 || t.future < 0 then
    refuse ("partition counts of " ++ t.tableName ++ " must not be negative")
  else if t.initialPast = 0 && t.future = 0 then
    refuse (t.tableName ++ " needs at least one past or future partition")
  else .ok ()

/-- The minutes that a partition spans. -/
def minutes (t : PartitionTable) : Int64 := t.unit.toMinutes t.duration

/-- The longest time, in whole days, that the partitions of a table can hold. -/
def maxPurgeDays (t : PartitionTable) : Int64 :=
  Int64.ofIntClamp (t.minutes.toInt * maxPartitions) / 1440

/-- The partitioning of a table as JSON. -/
def toJson (t : PartitionTable) : Json := .obj [
  ("table_name", .str t.tableName),
  ("partition_duration", .int t.duration.toInt),
  ("partition_unit", t.unit.toJson),
  ("initial_past_partitions", .int t.initialPast.toInt),
  ("future_partitions", .int t.future.toInt)]

/-- Decodes the partitioning of a table. -/
def decoder : Json.Decoder PartitionTable :=
  (PartitionTable.mk <$> Json.Record.required "table_name" Json.text
    <*> Json.Record.required "partition_duration" Json.int64
    <*> Json.Record.required "partition_unit" PartitionUnit.decoder
    <*> Json.Record.required "initial_past_partitions" Json.int64
    <*> Json.Record.required "future_partitions" Json.int64).decode "struct PartitionTableConfig"

end PartitionTable

/-- How the tables of archived events and of occurrences are partitioned. -/
structure Partitions where
  archive : PartitionTable
  occurrence : PartitionTable
deriving DecidableEq, Repr

namespace Partitions

/-- The partitioning that holds unless another is set. -/
def default : Partitions where
  archive := ⟨"event_archive", 1, .days, 1, 3⟩
  occurrence := ⟨"event", 1, .hours, 1, 3⟩

instance : Inhabited Partitions := ⟨default⟩

/-- Refuses what either table's partitioning is refused for, that of the archive first. -/
def validate (p : Partitions) : Except ServiceError Unit := do
  p.archive.validate
  p.occurrence.validate

/-- The partitioning as JSON. -/
def toJson (p : Partitions) : Json := .obj [
  ("event_archive", p.archive.toJson), ("event_occurrence", p.occurrence.toJson)]

/-- Decodes a partitioning. -/
def decoder : Json.Decoder Partitions :=
  (Partitions.mk <$> Json.Record.required "event_archive" PartitionTable.decoder
    <*> Json.Record.required "event_occurrence" PartitionTable.decoder).decode
    "struct PartitionConfig"

end Partitions

end EventCatalog
