import EventCatalog.Analysis.Analyzer

/-!
# Schemas

A schema lists the fields of an index: what values they hold, how they are indexed, whether they
have a column to sort and count by, and whether documents give them back. `Schema.events` is the
schema of the event index.
-/

namespace EventCatalog

/-- What the values of a field are. -/
inductive FieldType where
  | text
  | integer
  | unsigned
  | real
  | boolean
  | date
  | bytes
  | address
  | json
  | facet
deriving DecidableEq, Repr, Inhabited

/-- The name of a type in messages. -/
def FieldType.name : FieldType → String
  | text => "Str"
  | integer => "I64"
  | unsigned => "U64"
  | real => "F64"
  | boolean => "Bool"
  | date => "Date"
  | bytes => "Bytes"
  | address => "IpAddr"
  | json => "Json"
  | facet => "Facet"

/-- How the values of a field can be looked up. -/
inductive Indexing where
  /-- Not at all. -/
  | none
  /-- As they are. -/
  | exact
  /-- By the tokens of an analyzer. -/
  | analyzed (analyzer : Analyzer)
deriving DecidableEq, Repr, Inhabited

/-- A field of an index. -/
structure Field where
  name : String
  type : FieldType
  indexing : Indexing
  /-- Whether there is a column of its values. -/
  fast : Bool
  /-- Whether documents keep its values. -/
  stored : Bool
deriving DecidableEq, Repr, Inhabited

/-- Whether the field can be looked up. -/
def Field.isIndexed (f : Field) : Bool := f.indexing != .none

/-- The fields of an index, each name once. -/
abbrev Schema := List Field

namespace Field

/-- A text that is looked up as a whole. -/
def keyword (name : String) (fast : Bool) (stored : Bool) : Field :=
  ⟨name, .text, .analyzed .keyword, fast, stored⟩

/-- A text that is looked up by tokens. -/
def analyzed (name : String) (analyzer : Analyzer) : Field :=
  ⟨name, .text, .analyzed analyzer, false, false⟩

/-- An integer with a column. -/
def number (name : String) (stored : Bool) : Field := ⟨name, .integer, .exact, true, stored⟩

/-! ### The names of the event index -/

def uuid := "uuid"
def status := "status"
def severity := "severity"
def count := "count"
def firstSeen := "first_seen_time"
def lastSeen := "last_seen_time"
def statusChange := "status_change_time"
def updateTime := "update_time"
def element := "element_identifier"
def elementKeyword := "element_identifier_not_analyzed"
def subElement := "element_sub_identifier"
def subElementKeyword := "element_sub_identifier_not_analyzed"
def summary := "summary"
def summaryKeyword := "summary_not_analyzed"
def eventClass := "event_class"
def tag := "tag"
def acknowledgedByName := "acknowledged_by_user_name"
def agent := "agent"
def monitor := "monitor"
def eventJson := "event_json"

end Field

namespace Schema

/-- The field of that name. -/
def field? (s : Schema) (name : String) : Option Field := s.find? fun f => f.name == name

/-- The integer fields of the event index. -/
def integerFields : List String := [
  Field.status, Field.severity, Field.count, Field.firstSeen, Field.lastSeen, Field.statusChange,
  Field.updateTime]

/-- The text fields of the event index that are looked up as a whole. -/
def keywordFields : List String := [
  Field.uuid, Field.tag, Field.acknowledgedByName, Field.agent, Field.monitor, Field.eventClass,
  Field.elementKeyword, Field.subElementKeyword, Field.summaryKeyword]

/-- The schema of the event index. Identifiers and summaries are held twice: analyzed, and as
lower-cased keywords for globs and sorting. -/
def events : Schema := [
  Field.keyword Field.uuid false true,
  Field.number Field.status true,
  Field.number Field.severity true,
  Field.number Field.count false,
  Field.number Field.firstSeen false,
  Field.number Field.lastSeen false,
  Field.number Field.statusChange false,
  Field.number Field.updateTime false,
  Field.analyzed Field.element .grams,
  Field.keyword Field.elementKeyword true false,
  Field.analyzed Field.subElement .grams,
  Field.keyword Field.subElementKeyword true false,
  Field.analyzed Field.summary .words,
  Field.keyword Field.summaryKeyword true false,
  Field.keyword Field.eventClass true false,
  Field.keyword Field.tag false false,
  Field.keyword Field.acknowledgedByName false false,
  Field.keyword Field.agent false false,
  Field.keyword Field.monitor false false,
  ⟨Field.eventJson, .text, .none, false, true⟩]

/-- The first field of the event index that a schema lacks. -/
def missingEventField? (s : Schema) : Option String :=
  (events.map Field.name).find? fun name => (s.field? name).isNone

/-- The event index lacks none of its fields. -/
theorem missingEventField?_events : missingEventField? events = none := by decide

end Schema

end EventCatalog
