import EventCatalog.Error
import EventCatalog.Event.Basic
import EventCatalog.Json.Printer
import EventCatalog.Search.Schema
import EventCatalog.Text.LowerCase

/-!
# Documents

What the index holds of an event: values by field, and the whole event as JSON text, from which it
is read back. `Document.ofEvent` writes a document, `Document.event` reads its event.
-/

namespace EventCatalog

/-- A value of a field. -/
inductive FieldValue where
  | text (s : String)
  | int (n : Int)
deriving DecidableEq, Repr, Inhabited

/-- A value of a field as JSON. -/
def FieldValue.toJson : FieldValue → Json
  | text s => .str s
  | int n => .int n

/-- Values by field, in the order in which they were added; a field may have several. -/
structure Document where
  values : List (String × FieldValue)
deriving DecidableEq, Repr, Inhabited

/-- The class of an event as it is indexed: in lower case, with a slash at its end. -/
def normalizeClass (eventClass : String) : String :=
  let s := Text.lower eventClass
  if s.toList.getLast? = some '/' then s else s ++ "/"

namespace Document

/-- The values of a field. -/
def get (d : Document) (field : String) : List FieldValue :=
  d.values.filterMap fun v => if v.1 == field then some v.2 else none

/-- The texts of a field. -/
def texts (d : Document) (field : String) : List String :=
  (d.get field).filterMap fun v => match v with
    | .text s => some s
    | .int _ => none

/-- The integers of a field. -/
def ints (d : Document) (field : String) : List Int :=
  (d.get field).filterMap fun v => match v with
    | .int n => some n
    | .text _ => none

/-- An optional text of a field. -/
def optionalText (field : String) (s : Option String) : List (String × FieldValue) :=
  match s with
  | some s => [(field, .text s)]
  | none => []

/-- The document of an event. -/
def ofEvent {τ : Type} [HasTimestamp τ] (e : Event τ) : Document where
  values := [
      (Field.uuid, .text e.uuid.render),
      (Field.status, .int e.status.code),
      (Field.severity, .int e.severity.code),
      (Field.count, .int e.count.toNat),
      (Field.firstSeen, .int (timestamp e.firstSeen).millis),
      (Field.lastSeen, .int (timestamp e.lastSeen).millis),
      (Field.statusChange, .int (timestamp e.statusChange).millis),
      (Field.updateTime, .int (timestamp e.updateTime).millis),
      (Field.element, .text e.element),
      (Field.elementKeyword, .text (Text.lower e.element))] ++
    (if e.subElement.isEmpty then [] else [
      (Field.subElement, .text e.subElement),
      (Field.subElementKeyword, .text (Text.lower e.subElement))]) ++ [
      (Field.summary, .text e.summary),
      (Field.summaryKeyword, .text (Text.lower e.summary)),
      (Field.eventClass, .text (normalizeClass e.eventClass))] ++
    e.tags.map (fun t => (Field.tag, FieldValue.text t)) ++
    optionalText Field.acknowledgedByName e.acknowledgedByName ++
    optionalText Field.agent e.agent ++
    optionalText Field.monitor e.monitor ++ [
      (Field.eventJson, .text e.toJson.render)]

/-- The event that a document was written from. -/
def event (d : Document) : Except DecodeError Event :=
  match d.get Field.eventJson with
  | .text s :: _ => Json.decodeText Event.decoder s
  | _ => .error .noStoredEvent

end Document

end EventCatalog
