import EventCatalog.Catalog.Basic
import EventCatalog.Json.Printer

/-!
# Stored indexes

The committed contents of an event index as a JSON text, and how they are read back.
-/

namespace EventCatalog

/-- Decodes a value of a field. -/
def FieldValue.decoder : Json.Decoder FieldValue
  | .str s => .ok (.text s)
  | .int n => .ok (.int n)
  | v => Json.wrongType "a text or an integer" v

/-- Decodes a value with the name of its field. -/
def Document.namedValue : Json.Decoder (String × FieldValue)
  | .arr [.str field, v] => (FieldValue.decoder v).map fun v => (field, v)
  | v => Json.wrongType "a field and its value" v

namespace Entry

/-- An entry of a segment as JSON. -/
def stored (e : Entry) : Json := .obj [
  ("live", .bool e.live),
  ("values", .arr (e.document.values.map fun v => .arr [.str v.1, v.2.toJson]))]

/-- Decodes an entry. -/
def decoder : Json.Decoder Entry :=
  ((fun live values => ⟨⟨values⟩, live⟩) <$> Json.Record.required "live" Json.boolean
    <*> Json.Record.required "values" (Json.list Document.namedValue)).decode "an entry"

end Entry

namespace Segment

/-- A segment as JSON. -/
def stored (s : Segment) : Json := .obj [
  ("id", .int s.id),
  ("delete_stamp", Json.ofOption (fun n : Nat => .int n) s.deleteStamp),
  ("entries", .arr (s.entries.map Entry.stored))]

/-- Decodes a segment. -/
def decoder : Json.Decoder Segment :=
  ((fun id stamp entries => ⟨id, entries, stamp, 0⟩) <$> Json.Record.required "id" Json.nat64
    <*> Json.Record.optional "delete_stamp" Json.nat64
    <*> Json.Record.required "entries" (Json.list Entry.decoder)).decode "a segment"

end Segment

namespace Index

/-- An index as JSON. -/
def stored (ix : Index) : Json := .obj [
  ("segments", .arr (ix.segments.map Segment.stored)),
  ("next_id", .int ix.nextId),
  ("stamp", .int ix.stamp)]

/-- Decodes an index of events. -/
def decoder : Json.Decoder Index :=
  (Index.mk .events <$> Json.Record.required "segments" (Json.list Segment.decoder)
    <*> Json.Record.required "next_id" Json.nat64
    <*> Json.Record.required "stamp" Json.nat64).decode "an index"

end Index

/-- The directory whose file of the index has a text, or has none. -/
def Directory.ofText : Option String → Directory
  | none => .absent
  | some s =>
    match Json.decodeText Index.decoder s with
    | .ok ix => .index ix
    | .error _ => .unreadable

/-- The text of the file of the index, if there is an index. -/
def Directory.text? : Directory → Option String
  | .index ix => some ix.stored.render
  | _ => none

end EventCatalog
