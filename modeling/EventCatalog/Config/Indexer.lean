import EventCatalog.Config.Search

/-!
# Configuration of the indexer

How often the queue is drained, how much of it at a time, and when ingestion is held back.
-/

namespace EventCatalog

/-- The configuration of the indexer. -/
structure IndexerConfig where
  enabled : Bool
  /-- The rows of one drain. -/
  batchLimit : Nat
  pollIntervalMillis : Nat
  /-- Of the archive, rows queued within so many milliseconds are left for later. -/
  archiveLagMillis : Option Nat
  /-- The length of the queue above which ingestion is held back; zero stands for twice the
  limit of a drain. -/
  throttleThreshold : Nat
  throttleDelayMillis : Nat
deriving DecidableEq, Repr

namespace IndexerConfig

/-- The configuration that holds unless another is set. -/
def default : IndexerConfig := ⟨true, 1000, 1000, none, 100000, 100⟩

instance : Inhabited IndexerConfig := ⟨default⟩

/-- The settings that are refused. -/
def rejections (c : IndexerConfig) : List Rejection :=
  SearchConfig.check "batch_limit" c.batchLimit 1 (some 100000) ++
  SearchConfig.check "poll_interval_ms" c.pollIntervalMillis 1 none

/-- The configuration as JSON. -/
def toJson (c : IndexerConfig) : Json := .obj [
  ("enabled", .bool c.enabled),
  ("batch_limit", .int c.batchLimit),
  ("poll_interval_ms", .int c.pollIntervalMillis),
  ("archive_update_lag_ms", Json.ofOption (fun n => .int n) c.archiveLagMillis),
  ("throttle_threshold", .int c.throttleThreshold),
  ("throttle_delay_ms", .int c.throttleDelayMillis)]

/-- Decodes a configuration of the indexer. -/
def decoder : Json.Decoder IndexerConfig :=
  (IndexerConfig.mk <$> Json.Record.required "enabled" Json.boolean
    <*> Json.Record.required "batch_limit" Json.size
    <*> Json.Record.required "poll_interval_ms" Json.nat64
    <*> Json.Record.optional "archive_update_lag_ms" Json.nat64
    <*> Json.Record.required "throttle_threshold" Json.nat64
    <*> Json.Record.required "throttle_delay_ms" Json.nat64).decode "struct IndexerConfig"

end IndexerConfig

end EventCatalog
