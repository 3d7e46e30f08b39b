import EventCatalog.Event.Severity
import EventCatalog.Event.Status
import EventCatalog.Time.Rfc3339
import EventCatalog.Uuid

/-!
# Events

An `Event` is the summary of all occurrences of one condition of one element, as the system of
record holds it: what it is, how bad, since when, how often, and who dealt with it. It is written
as JSON and read back with `Event.toJson` and `Event.decoder`.

The times of an event are `Instant`s, the times that its JSON form gives. Before it is written they may be any
`Timestamp`s (`Event Timestamp`).
-/

namespace EventCatalog

/-- A note that an operator left on an event. -/
structure Note (τ : Type := Instant) where
  uuid : Uuid
  userUuid : Option Uuid
  userName : Option String
  createdTime : τ
  message : String
deriving DecidableEq, Inhabited, Repr

/-- The summary of an event. -/
structure Event (τ : Type := Instant) where
  uuid : Uuid
  status : Status
  /-- Severity of the latest occurrence. -/
  severity : Severity
  firstSeen : τ
  lastSeen : τ
  statusChange : τ
  updateTime : τ
  /-- Number of occurrences. -/
  count : UInt32
  acknowledgedByUuid : Option Uuid
  acknowledgedByName : Option String
  clearedBy : Option Uuid
  summary : String
  /-- The element the event was raised against. -/
  element : String
  /-- A part of the element, such as an interface; empty for the element itself. -/
  subElement : String
  /-- The class of the event, a path such as `/Status/Ping`. -/
  eventClass : String
  agent : Option String
  monitor : Option String
  tags : List String
  notes : List (Note τ)
deriving DecidableEq, Inhabited, Repr

namespace Uuid

/-- The identifier made of random bits: version 4 in the seventh byte, the standard variant in the
ninth. -/
def ofRandom (bits : BitVec 128) : Uuid :=
  let version := 0xF <<< 76
  let variant := 0x3 <<< 62
  ⟨(bits &&& ~~~(BitVec.ofNat 128 (version ||| variant))) |||
    BitVec.ofNat 128 (0x4 <<< 76 ||| 0x2 <<< 62)⟩

/-- The version number in the seventh byte. -/
def version (u : Uuid) : Nat := (u.toNat >>> 76) % 16

end Uuid

namespace Note

/-- A note as JSON. -/
def toJson {τ : Type} [HasTimestamp τ] (n : Note τ) : Json := .obj [
  ("uuid", n.uuid.toJson),
  ("user_uuid", Json.ofOption Uuid.toJson n.userUuid),
  ("user_name", Json.ofOption Json.str n.userName),
  ("created_time", (timestamp n.createdTime).toJson),
  ("message", .str n.message)]

/-- The fields of a note. -/
def record : Json.Record Note :=
  Note.mk <$> Json.Record.required "uuid" Uuid.decoder
    <*> Json.Record.optional "user_uuid" Uuid.decoder
    <*> Json.Record.optional "user_name" Json.text
    <*> Json.Record.required "created_time" Instant.decoder
    <*> Json.Record.required "message" Json.text

/-- Decodes a note. -/
def decoder : Json.Decoder Note := record.decode "struct EventNote"

end Note

namespace Event

/-- An event that was seen once, at `now`, and that nobody has dealt with. -/
def raise (uuid : Uuid) (now : Instant) (element eventClass summary : String)
    (severity : Severity) : Event where
  uuid := uuid
  status := .new
  severity := severity
  firstSeen := now
  lastSeen := now
  statusChange := now
  updateTime := now
  count := 1
  acknowledgedByUuid := none
  acknowledgedByName := none
  clearedBy := none
  summary := summary
  element := element
  subElement := ""
  eventClass := eventClass
  agent := none
  monitor := none
  tags := []
  notes := []

/-- Whether the event counts when severities are rolled up. -/
def isOpen (e : Event) : Bool := e.status.isOpen

/-- An event as JSON. -/
def toJson {τ : Type} [HasTimestamp τ] (e : Event τ) : Json := .obj [
  ("uuid", e.uuid.toJson),
  ("status", e.status.toJson),
  ("severity", e.severity.toJson),
  ("first_seen_time", (timestamp e.firstSeen).toJson),
  ("last_seen_time", (timestamp e.lastSeen).toJson),
  ("status_change_time", (timestamp e.statusChange).toJson),
  ("update_time", (timestamp e.updateTime).toJson),
  ("count", .int e.count.toNat),
  ("acknowledged_by_user_uuid", Json.ofOption Uuid.toJson e.acknowledgedByUuid),
  ("acknowledged_by_user_name", Json.ofOption Json.str e.acknowledgedByName),
  ("cleared_by_event_uuid", Json.ofOption Uuid.toJson e.clearedBy),
  ("summary", .str e.summary),
  ("element_identifier", .str e.element),
  ("element_sub_identifier", .str e.subElement),
  ("event_class", .str e.eventClass),
  ("agent", Json.ofOption Json.str e.agent),
  ("monitor", Json.ofOption Json.str e.monitor),
  ("tags", .arr (e.tags.map Json.str)),
  ("notes", .arr (e.notes.map Note.toJson))]

/-- The fields of an event. -/
def record : Json.Record Event :=
  Event.mk <$> Json.Record.required "uuid" Uuid.decoder
    <*> Json.Record.required "status" Status.decoder
    <*> Json.Record.required "severity" Severity.decoder
    <*> Json.Record.required "first_seen_time" Instant.decoder
    <*> Json.Record.required "last_seen_time" Instant.decoder
    <*> Json.Record.required "status_change_time" Instant.decoder
    <*> Json.Record.required "update_time" Instant.decoder
    <*> Json.Record.required "count" Json.nat32
    <*> Json.Record.optional "acknowledged_by_user_uuid" Uuid.decoder
    <*> Json.Record.optional "acknowledged_by_user_name" Json.text
    <*> Json.Record.optional "cleared_by_event_uuid" Uuid.decoder
    <*> Json.Record.required "summary" Json.text
    <*> Json.Record.required "element_identifier" Json.text
    <*> Json.Record.defaulted "element_sub_identifier" Json.text ""
    <*> Json.Record.required "event_class" Json.text
    <*> Json.Record.defaulted "agent" (Json.optional Json.text) none
    <*> Json.Record.defaulted "monitor" (Json.optional Json.text) none
    <*> Json.Record.defaulted "tags" (Json.list Json.text) []
    <*> Json.Record.defaulted "notes" (Json.list Note.decoder) []

/-- Decodes an event. -/
def decoder : Json.Decoder Event := record.decode "struct EventSummary"

end Event

end EventCatalog
