import EventCatalog.Search.Filter
import EventCatalog.Search.Document

/-!
# Sorting

Events are sorted by columns of the index, each in its own direction. A `SortKey` is what a
document has in the columns; the document with the greater key comes first.
-/

namespace EventCatalog

/-- The direction of a sort. -/
inductive Direction where
  | ascending
  | descending
deriving DecidableEq, Repr, Inhabited

/-- What events can be sorted by. -/
inductive SortField where
  | count
  | element
  | subElement
  | eventClass
  | summary
  | firstSeen
  | lastSeen
  | severity
  | status
  | statusChange
  | updateTime
deriving DecidableEq, Repr, Inhabited

/-- One step of a sort. -/
structure SortBy where
  field : SortField
  direction : Direction
deriving DecidableEq, Repr, Inhabited

/-- A column of the index. -/
inductive Column where
  | int (field : String)
  | text (field : String)
deriving DecidableEq, Repr, Inhabited

/-- What a document has in a column. Values of different kinds are ordered as they are listed. -/
inductive SortValue where
  | missing
  | int (n : Int)
  | text (s : String)
deriving DecidableEq, Repr, Inhabited

namespace Direction

/-- The directions by their names. -/
def named : List (String × Direction) := [("ascending", ascending), ("descending", descending)]

/-- The written name. -/
def name : Direction → String
  | ascending => "ascending"
  | descending => "descending"

/-- The opposite direction. -/
def flip : Direction → Direction
  | ascending => descending
  | descending => ascending

end Direction

namespace SortField

/-- The fields by their names. -/
def named : List (String × SortField) := [
  ("count", count),
  ("element_identifier", element),
  ("element_sub_identifier", subElement),
  ("event_class", eventClass),
  ("event_summary", summary),
  ("first_seen", firstSeen),
  ("last_seen", lastSeen),
  ("severity", severity),
  ("status", status),
  ("status_change", statusChange),
  ("update_time", updateTime)]

/-- The written name. -/
def name (f : SortField) : String :=
  ((named.find? fun p => p.2 = f).map Prod.fst).getD ""

/-- The column that a field is sorted by. -/
def column : SortField → Column
  | count => .int Field.count
  | element => .text Field.elementKeyword
  | subElement => .text Field.subElementKeyword
  | eventClass => .text Field.eventClass
  | summary => .text Field.summaryKeyword
  | firstSeen => .int Field.firstSeen
  | lastSeen => .int Field.lastSeen
  | severity => .int Field.severity
  | status => .int Field.status
  | statusChange => .int Field.statusChange
  | updateTime => .int Field.updateTime

end SortField

namespace SortBy

/-- The sort of a list for which none is asked: the latest events first. -/
def latestFirst : SortBy := ⟨.lastSeen, .descending⟩

/-- A sort as JSON. -/
def toJson (s : SortBy) : Json := .obj [
  ("field", .str s.field.name), ("direction", .str s.direction.name)]

/-- Decodes a sort. -/
def decoder : Json.Decoder SortBy :=
  (SortBy.mk <$> Json.Record.required "field" (Json.variant SortField.named)
    <*> Json.Record.required "direction" (Json.variant Direction.named)).decode "struct EventSort"

end SortBy

namespace SortValue

/-- The order of values: what is missing comes before numbers, numbers before texts. -/
def cmp : SortValue → SortValue → Ordering
  | missing, missing => .eq
  | missing, _ => .lt
  | int _, missing => .gt
  | int a, int b => compare a b
  | int _, text _ => .lt
  | text a, text b => compare a b
  | text _, _ => .gt

instance : Ord SortValue := ⟨cmp⟩

end SortValue

/-- What a document has in the columns of a sort, with their directions. -/
structure SortKey where
  parts : List (Direction × SortValue)
deriving DecidableEq, Repr, Inhabited

namespace SortKey

/-- The order of two parts; ascending parts are turned round. -/
def cmpPart (direction : Direction) (a b : SortValue) : Ordering :=
  match direction with
  | .descending => compare a b
  | .ascending => compare b a

/-- The answer of comparing two lists of parts, as far as both go: the first difference decides. -/
def cmpParts? : List (Direction × SortValue) → List (Direction × SortValue) → Option Ordering
  | (d, a) :: as, (_, b) :: bs =>
    match cmpPart d a b with
    | .eq => cmpParts? as bs
    | difference => some difference
  | _, _ => some .eq

/-- The answer of comparing two keys. -/
def cmp? (a b : SortKey) : Option Ordering := cmpParts? a.parts b.parts

/-- The order of keys; the document with the greater key comes first. Without an answer keys would count
as equal. -/
def cmp (a b : SortKey) : Ordering := (cmp? a b).getD .eq

end SortKey

namespace Document

/-- What a document has in a column of an index: its first value, if the index has the column. -/
def sortValue (schema : Schema) (d : Document) : Column → SortValue
  | .int field =>
    match schema.field? field with
    | some f =>
      if f.type == .integer && f.fast then ((d.ints field).head?.map .int).getD .missing
      else .missing
    | none => .missing
  | .text field =>
    match schema.field? field with
    | some f =>
      if f.type == .text && f.fast then ((d.texts field).head?.map .text).getD .missing
      else .missing
    | none => .missing

/-- The key of a document for a sort. -/
def sortKey (schema : Schema) (sort : List SortBy) (d : Document) : SortKey :=
  ⟨sort.map fun s => (s.direction, d.sortValue schema s.field.column)⟩

end Document

end EventCatalog
