import EventCatalog.Json.Printer
import EventCatalog.Settings.Event

/-!
# Stored settings

Settings are stored as records of a name and a text. `EventSettings.encode` writes one record for
each setting, in the order of the names; `EventSettings.decode` lays records over the defaults.
-/

namespace EventCatalog

/-- One stored setting. -/
structure SettingRecord where
  name : String
  value : String
deriving DecidableEq, Repr, Inhabited

namespace SettingRecord

/-- A record as JSON. -/
def toJson (r : SettingRecord) : Json := .obj [("name", .str r.name), ("value", .str r.value)]

/-- Decodes a record. -/
def decoder : Json.Decoder SettingRecord :=
  (SettingRecord.mk <$> Json.Record.required "name" Json.text
    <*> Json.Record.required "value" Json.text).decode "struct SettingRecord"

end SettingRecord

namespace EventSettings

/-- The records of settings, sorted by name. -/
def encode (s : EventSettings) : List SettingRecord :=
  (Json.sortFields s.fields).map fun f => ⟨f.1, f.2.render⟩

/-- Reads the text of a setting as a value of the kind that it has: a truth value or a number, in
either case with nothing but blanks around it. -/
def parseValue (name : String) (current : Json) (text : String) : Except ServiceError Json :=
  let malformed := fun reason =>
    Except.error ⟨.serialization, .decoding (.malformedSetting name reason)⟩
  let s := Text.trim text.toList
  match current with
  | .bool _ =>
    if s = "true".toList then .ok (.bool true)
    else if s = "false".toList then .ok (.bool false)
    else malformed "neither true nor false"
  | _ =>
    match Json.number s with
    | some (v, []) => .ok v
    | _ => malformed "invalid number"

/-- Lays records over the values of settings; a record with an unknown name is passed over. -/
def overlay : List (String × Json) → List SettingRecord →
    Except ServiceError (List (String × Json))
  | values, [] => .ok values
  | values, r :: rest =>
    match values.lookup r.name with
    | none => overlay values rest
    | some current => do
      let v ← parseValue r.name current r.value
      overlay (Json.insertField r.name v values) rest

/-- The settings that records stand for; where there is none, the default holds. -/
def decode (records : List SettingRecord) : Except ServiceError EventSettings := do
  let values ← overlay (Json.sortFields default.fields) records
  match Json.decodeValue decoder (.obj values) with
  | .ok s => return s
  | .error e => throw ⟨.serialization, .decoding e⟩

end EventSettings

end EventCatalog
