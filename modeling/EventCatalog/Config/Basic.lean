import EventCatalog.Config.Indexer
import EventCatalog.Settings.Event

/-!
# Configuration

The configuration of the whole service, in sections. A section that is left out has its defaults.
-/

namespace EventCatalog

/-- What the service tells about itself. -/
structure ObservabilityConfig where
  logLevel : String
  jsonLogs : Bool
  serviceName : String
  prometheusEnabled : Bool
deriving DecidableEq, Repr

namespace ObservabilityConfig

/-- The section that holds unless another is set. -/
def default : ObservabilityConfig := ⟨"info", false, "event-indexer", true⟩

/-- The section as JSON. -/
def toJson (c : ObservabilityConfig) : Json := .obj [
  ("log_level", .str c.logLevel),
  ("json_logs", .bool c.jsonLogs),
  ("service_name", .str c.serviceName),
  ("prometheus_enabled", .bool c.prometheusEnabled)]

/-- Decodes the section. -/
def decoder : Json.Decoder ObservabilityConfig :=
  (ObservabilityConfig.mk <$> Json.Record.defaulted "log_level" Json.text default.logLevel
    <*> Json.Record.defaulted "json_logs" Json.boolean default.jsonLogs
    <*> Json.Record.defaulted "service_name" Json.text default.serviceName
    <*> Json.Record.defaulted "prometheus_enabled" Json.boolean
      default.prometheusEnabled).decode "struct ObservabilityConfig"

end ObservabilityConfig

/-- The configuration of the service. -/
structure Config where
  search : SearchConfig
  indexer : IndexerConfig
  observability : ObservabilityConfig
  partitions : Partitions
  events : EventSettings
deriving DecidableEq, Repr

namespace Config

/-- The configuration that holds unless another is set. -/
def default : Config := ⟨.default, .default, .default, .default, .default⟩

instance : Inhabited Config := ⟨default⟩

/-- Refuses settings out of range, of one section after the other. -/
def validate (c : Config) : Except ServiceError Unit := do
  let checkRanges := fun (rejected : List Rejection) =>
    if rejected.isEmpty then Except.ok ()
    else Except.error (ServiceError.mk .validation (.rejected rejected))
  checkRanges c.search.rejections
  checkRanges c.indexer.rejections
  c.partitions.validate
  (SettingsLimits.ofPartitions c.partitions).validate c.events

/-- The configuration as JSON. -/
def toJson (c : Config) : Json := .obj [
  ("search", c.search.toJson),
  ("indexer", c.indexer.toJson),
  ("observability", c.observability.toJson),
  ("partitions", c.partitions.toJson),
  ("events", c.events.toJson)]

/-- Decodes a configuration. -/
def decoder : Json.Decoder Config :=
  (Config.mk <$> Json.Record.defaulted "search" SearchConfig.decoder default.search
    <*> Json.Record.defaulted "indexer" IndexerConfig.decoder default.indexer
    <*> Json.Record.defaulted "observability" ObservabilityConfig.decoder default.observability
    <*> Json.Record.defaulted "partitions" Partitions.decoder default.partitions
    <*> Json.Record.defaulted "events" EventSettings.decoder default.events).decode "struct Config"

end Config

end EventCatalog
