import EventCatalog.Config.Basic
import EventCatalog.Config.Layer
import EventCatalog.Config.Layout
import EventCatalog.Toml.Parser

/-!
# Loading the configuration

The configuration has three layers: the defaults, a file, and the variables of the environment, each
stronger than the one before. `Config.load` merges them, converts the settings to their types,
decodes them and refuses what is out of range.
-/

namespace EventCatalog.Config

/-! ### The environment -/

/-- How the names of variables that are settings begin. Their case does not matter. -/
def variableLead : String := "event_indexer__"

/-- A text with a dot in place of every two underscores. -/
def dotted : List Char → List Char
  | '_' :: '_' :: rest => '.' :: dotted rest
  | c :: rest => c :: dotted rest
  | [] => []

/-- The value that a variable's text stands for: a truth value, a number or itself. -/
def variableValue (s : String) : Json :=
  match Text.lower s, Text.int64Of? s, Decimal.read? s with
  | "true", _, _ => .bool true
  | "false", _, _ => .bool false
  | _, some n, _ => .int n.toInt
  | _, none, some x => .real x
  | _, none, none => .str s

/-- The setting that a variable stands for. -/
def setting? (entry : String × String) : Option (String × Json) :=
  let name := (Text.lower entry.1).toList
  if variableLead.toList.isPrefixOf name then
    some (String.ofList (dotted (name.drop variableLead.length)), variableValue entry.2)
  else none

/-! ### The types of the settings -/

/-- The types of the settings of a partitioned table. -/
def tableLayout : Layout := .record [
  ("table_name", .text),
  ("partition_duration", .integer),
  ("partition_unit", .choice (PartitionUnit.all.map PartitionUnit.name)),
  ("initial_past_partitions", .integer),
  ("future_partitions", .integer)]

/-- The types of all settings, in the order in which their records declare them. -/
def layout : Layout := .record [
  ("search", .record [
    ("index_path", .text),
    ("writer_heap_size", .natural),
    ("indexing_threads", .natural),
    ("optimize_threshold", .natural),
    ("max_results", .natural)]),
  ("indexer", .record [
    ("enabled", .boolean),
    ("batch_limit", .natural),
    ("poll_interval_ms", .natural),
    ("archive_update_lag_ms", .natural),
    ("throttle_threshold", .natural),
    ("throttle_delay_ms", .natural)]),
  ("observability", .record [
    ("log_level", .text),
    ("json_logs", .boolean),
    ("service_name", .text),
    ("prometheus_enabled", .boolean)]),
  ("partitions", .record [
    ("event_archive", tableLayout),
    ("event_occurrence", tableLayout)]),
  ("events", .record [
    ("event_age_interval_minutes", .integer),
    ("event_age_disable_severity", .integer),
    ("event_age_severity_inclusive", .boolean),
    ("event_archive_purge_interval_days", .integer),
    ("event_occurrence_purge_interval_days", .integer),
    ("event_archive_interval_days", .integer),
    ("event_max_summary_length", .integer),
    ("index_summary_interval_milliseconds", .integer),
    ("index_archive_interval_milliseconds", .integer),
    ("index_limit", .integer)])]

/-! ### Loading -/

/-- An error of the configuration as a whole. -/
def unloadable (s : String) : ServiceError := .ofText .configuration s

/-- The configuration from the text of a file, if there is one, and the variables of the
environment. -/
def load (file : Option String) (environment : List (String × String)) :
    Except ServiceError Config := do
  let fromFile ← match file.map Toml.parse? with
    | none => pure []
    | some none => throw (unloadable "the file is not TOML")
    | some (some doc) => pure (Layer.fieldsOf (some doc))
  let merged := Layer.mergeEntries (Layer.mergeEntries default.toJson fromFile)
    (environment.filterMap setting?)
  match decoder (layout.adapt merged) with
  | .error e => throw ⟨.configuration, .decoding e⟩
  | .ok config =>
    config.validate
    return config

end EventCatalog.Config
