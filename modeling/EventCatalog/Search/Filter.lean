import EventCatalog.Event.Basic
import EventCatalog.Search.Clause

/-!
# Filters

A filter says which events are wanted. Each part of it that is given narrows the selection; a part
with several values is met by any of them, tags on demand only by all.
`Filter.clauses` lists the conditions on the index that it amounts to.
-/

namespace EventCatalog

/-- An interval of time with both ends; an end that is not given is open. -/
structure TimeRange where
  first : Option Instant
  last : Option Instant
deriving DecidableEq, Repr, Inhabited

/-- The events that are wanted. -/
structure Filter where
  uuids : List Uuid := []
  count : Option UInt32 := none
  element : Option String := none
  subElement : Option String := none
  summary : Option String := none
  firstSeen : Option TimeRange := none
  lastSeen : Option TimeRange := none
  statusChange : Option TimeRange := none
  updateTime : Option TimeRange := none
  statuses : List Status := []
  severities : List Severity := []
  eventClass : Option String := none
  tags : List String := []
  tagsCombine : Combine := .any
  acknowledgedByName : Option String := none
  agents : List String := []
  monitors : List String := []
deriving DecidableEq, Repr, Inhabited

namespace Combine

/-- The ways to combine by their names. -/
def named : List (String × Combine) := [("and", all), ("or", any)]

/-- The written name. -/
def name : Combine → String
  | all => "and"
  | any => "or"

/-- Decodes a way to combine. -/
def decoder : Json.Decoder Combine := Json.variant named

end Combine

namespace TimeRange

/-- An interval as JSON. -/
def toJson (r : TimeRange) : Json := .obj [
  ("start", Json.ofOption Instant.toJson r.first),
  ("end", Json.ofOption Instant.toJson r.last)]

/-- Decodes an interval. -/
def decoder : Json.Decoder TimeRange :=
  (TimeRange.mk <$> Json.Record.optional "start" Instant.decoder
    <*> Json.Record.optional "end" Instant.decoder).decode "struct TimestampRange"

/-- The condition that the interval puts on a field of milliseconds. -/
def clause (field : String) (r : TimeRange) : Clause :=
  .range field (r.first.map (·.millis)) (r.last.map (·.millis))

end TimeRange

namespace Filter

/-- A filter as JSON. -/
def toJson (f : Filter) : Json := .obj [
  ("uuids", .arr (f.uuids.map Uuid.toJson)),
  ("count", Json.ofOption (fun n => .int n.toNat) f.count),
  ("element_identifier", Json.ofOption Json.str f.element),
  ("element_sub_identifier", Json.ofOption Json.str f.subElement),
  ("summary", Json.ofOption Json.str f.summary),
  ("first_seen", Json.ofOption TimeRange.toJson f.firstSeen),
  ("last_seen", Json.ofOption TimeRange.toJson f.lastSeen),
  ("status_change", Json.ofOption TimeRange.toJson f.statusChange),
  ("update_time", Json.ofOption TimeRange.toJson f.updateTime),
  ("statuses", .arr (f.statuses.map Status.toJson)),
  ("severities", .arr (f.severities.map Severity.toJson)),
  ("event_class", Json.ofOption Json.str f.eventClass),
  ("tags", .arr (f.tags.map Json.str)),
  ("tags_op", .str f.tagsCombine.name),
  ("acknowledged_by_user_name", Json.ofOption Json.str f.acknowledgedByName),
  ("agents", .arr (f.agents.map Json.str)),
  ("monitors", .arr (f.monitors.map Json.str))]

/-- The fields of a filter, all of which may be left out. -/
def record : Json.Record Filter :=
  Filter.mk <$> Json.Record.defaulted "uuids" (Json.list Uuid.decoder) []
    <*> Json.Record.defaulted "count" (Json.optional Json.nat32) none
    <*> Json.Record.defaulted "element_identifier" (Json.optional Json.text) none
    <*> Json.Record.defaulted "element_sub_identifier" (Json.optional Json.text) none
    <*> Json.Record.defaulted "summary" (Json.optional Json.text) none
    <*> Json.Record.defaulted "first_seen" (Json.optional TimeRange.decoder) none
    <*> Json.Record.defaulted "last_seen" (Json.optional TimeRange.decoder) none
    <*> Json.Record.defaulted "status_change" (Json.optional TimeRange.decoder) none
    <*> Json.Record.defaulted "update_time" (Json.optional TimeRange.decoder) none
    <*> Json.Record.defaulted "statuses" (Json.list Status.decoder) []
    <*> Json.Record.defaulted "severities" (Json.list Severity.decoder) []
    <*> Json.Record.defaulted "event_class" (Json.optional Json.text) none
    <*> Json.Record.defaulted "tags" (Json.list Json.text) []
    <*> Json.Record.defaulted "tags_op" Combine.decoder .any
    <*> Json.Record.defaulted "acknowledged_by_user_name" (Json.optional Json.text) none
    <*> Json.Record.defaulted "agents" (Json.list Json.text) []
    <*> Json.Record.defaulted "monitors" (Json.list Json.text) []

/-- Decodes a filter. -/
def decoder : Json.Decoder Filter := record.decode "struct EventFilter"

/-- A set of values as a clause, if there are any. -/
def anyOf (field : String) (values : List String) : List Clause :=
  if values.isEmpty then [] else [.exactSet field values .any]

/-- The conditions of a filter, one for each part that is given. -/
def clauses (f : Filter) : List Clause :=
  anyOf Field.uuid (f.uuids.map Uuid.render) ++
  (f.count.map fun n => Clause.exact Field.count (toString n.toNat)).toList ++
  (f.element.map (Clause.pattern .element)).toList ++
  (f.subElement.map (Clause.pattern .subElement)).toList ++
  (f.summary.map (Clause.pattern .summary)).toList ++
  (f.firstSeen.map (TimeRange.clause Field.firstSeen)).toList ++
  (f.lastSeen.map (TimeRange.clause Field.lastSeen)).toList ++
  (f.statusChange.map (TimeRange.clause Field.statusChange)).toList ++
  (f.updateTime.map (TimeRange.clause Field.updateTime)).toList ++
  (if f.statuses.isEmpty then [] else
    [.codes Field.status (f.statuses.map fun s => (s.code : Int))]) ++
  (if f.severities.isEmpty then [] else
    [.codes Field.severity (f.severities.map fun s => (s.code : Int))]) ++
  (f.eventClass.map (Clause.path Field.eventClass)).toList ++
  (if f.tags.isEmpty then [] else [.exactSet Field.tag f.tags f.tagsCombine]) ++
  (f.acknowledgedByName.map (Clause.exact Field.acknowledgedByName)).toList ++
  anyOf Field.agent f.agents ++
  anyOf Field.monitor f.monitors

end Filter

end EventCatalog
