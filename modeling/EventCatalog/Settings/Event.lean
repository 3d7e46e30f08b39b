import EventCatalog.Event.Severity
import EventCatalog.Settings.Partition

/-!
# Event settings

What operators can tune while the service runs. The intervals in days have bounds, two of which
follow from how the tables are partitioned.
-/

namespace EventCatalog

/-- The tunable settings. -/
structure EventSettings where
  /-- Open events that have not been seen for so long are aged; zero turns this off. -/
  ageIntervalMinutes : Int64
  /-- Events of this severity and above are never aged. -/
  ageDisableSeverity : Severity
  ageSeverityInclusive : Bool
  /-- Archived events older than this are purged. -/
  archivePurgeDays : Int64
  /-- Event occurrences older than this are purged. -/
  occurrencePurgeDays : Int64
  /-- Closed events go to the archive after so long. -/
  archiveDays : Int64
  /-- Longer summaries are cut. -/
  maxSummaryLength : Int64
  summaryPollMillis : Int64
  archivePollMillis : Int64
  /-- The rows of one drain. -/
  indexLimit : Int64
deriving DecidableEq, Repr

namespace EventSettings

/-- The settings that hold unless others are set. -/
def default : EventSettings := ⟨240, .error, false, 90, 30, 3, 255, 1000, 30000, 1000⟩

instance : Inhabited EventSettings := ⟨default⟩

/-- Decodes a severity that is given by its code. -/
def severityCode : Json.Decoder Severity := fun v => do
  let n ← Json.int64 v
  match Severity.ofCode? n.toInt with
  | some s => return s
  | none => throw (.unknownSeverityCode n.toInt)

/-- The fields of the settings, all of which may be left out. -/
def record : Json.Record EventSettings :=
  EventSettings.mk
    <$> Json.Record.defaulted "event_age_interval_minutes" Json.int64 default.ageIntervalMinutes
    <*> Json.Record.defaulted "event_age_disable_severity" severityCode default.ageDisableSeverity
    <*> Json.Record.defaulted "event_age_severity_inclusive" Json.boolean
      default.ageSeverityInclusive
    <*> Json.Record.defaulted "event_archive_purge_interval_days" Json.int64
      default.archivePurgeDays
    <*> Json.Record.defaulted "event_occurrence_purge_interval_days" Json.int64
      default.occurrencePurgeDays
    <*> Json.Record.defaulted "event_archive_interval_days" Json.int64 default.archiveDays
    <*> Json.Record.defaulted "event_max_summary_length" Json.int64 default.maxSummaryLength
    <*> Json.Record.defaulted "index_summary_interval_milliseconds" Json.int64
      default.summaryPollMillis
    <*> Json.Record.defaulted "index_archive_interval_milliseconds" Json.int64
      default.archivePollMillis
    <*> Json.Record.defaulted "index_limit" Json.int64 default.indexLimit

/-- Decodes settings. -/
def decoder : Json.Decoder EventSettings := record.decode "struct EventSettings"

/-- The settings by their names. -/
def fields (s : EventSettings) : List (String × Json) := [
  ("event_age_interval_minutes", .int s.ageIntervalMinutes.toInt),
  ("event_age_disable_severity", .int s.ageDisableSeverity.code),
  ("event_age_severity_inclusive", .bool s.ageSeverityInclusive),
  ("event_archive_purge_interval_days", .int s.archivePurgeDays.toInt),
  ("event_occurrence_purge_interval_days", .int s.occurrencePurgeDays.toInt),
  ("event_archive_interval_days", .int s.archiveDays.toInt),
  ("event_max_summary_length", .int s.maxSummaryLength.toInt),
  ("index_summary_interval_milliseconds", .int s.summaryPollMillis.toInt),
  ("index_archive_interval_milliseconds", .int s.archivePollMillis.toInt),
  ("index_limit", .int s.indexLimit.toInt)]

/-- The settings as JSON. -/
def toJson (s : EventSettings) : Json := .obj s.fields

end EventSettings

/-- The upper bounds of the settings in days. -/
structure SettingsLimits where
  archivePurgeDays : Int64
  occurrencePurgeDays : Int64
  archiveDays : Int64
deriving DecidableEq, Repr, Inhabited

namespace SettingsLimits

/-- The bounds that follow from a partitioning; closed events go to the archive within 30 days. -/
def ofPartitions (p : Partitions) : SettingsLimits :=
  ⟨p.archive.maxPurgeDays, p.occurrence.maxPurgeDays, 30⟩

/-- Refuses a number of days outside 1 to `greatest`. -/
def checkDays (what : String) (days greatest : Int64) : Except ServiceError Unit :=
  if 1 ≤ days ∧ days ≤ greatest then .ok ()
  else .error (.ofText .validation
    (what ++ " must be between 1 and " ++ toString greatest.toInt ++ " days, got " ++
      toString days.toInt))

/-- Refuses settings outside the bounds; the first that is outside is named. -/
def validate (limits : SettingsLimits) (s : EventSettings) : Except ServiceError Unit := do
  if s.ageIntervalMinutes < 0 then
    throw (.ofText .validation "event age interval must not be negative")
  checkDays "event archive purge interval" s.archivePurgeDays limits.archivePurgeDays
  checkDays "event occurrence purge interval" s.occurrencePurgeDays limits.occurrencePurgeDays
  checkDays "event archive interval" s.archiveDays limits.archiveDays

end SettingsLimits

end EventCatalog
