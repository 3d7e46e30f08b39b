import EventCatalog.Index.Segment

/-!
# The index

An `Index` is what lies in storage: a schema and the committed segments. It changes when a writer
commits to it (`Writer.commit`), when its segments are merged into one (`Index.consolidate`), and
when it is emptied (`Index.clear`).
-/

namespace EventCatalog

/-- The committed contents of an index. -/
structure Index where
  schema : Schema
  /-- The segments in the order in which they are searched. -/
  segments : List Segment
  /-- The number of the next segment. -/
  nextId : Nat
  /-- The number of the last commit. -/
  stamp : Nat
deriving Repr, Inhabited

namespace Index

/-- An index without documents. -/
def empty (schema : Schema) : Index := ⟨schema, [], 0, 0⟩

/-- All documents that count, in the order in which they are searched. -/
def documents (ix : Index) : List Document := ix.segments.flatMap Segment.live

/-- Puts a segment in front of the first one that it precedes. -/
def place (newestFirst : Bool) (s : Segment) : List Segment → List Segment
  | [] => [s]
  | t :: rest => if s.precedes newestFirst t then s :: t :: rest else t :: place newestFirst s rest

/-- The segments that have documents left, in the order of searching. -/
def arrange (newestFirst : Bool) (segments : List Segment) : List Segment :=
  (segments.filter fun s => !s.live.isEmpty).foldr (place newestFirst) []

/-- Whether merging would change anything: there are several segments, or one with documents
struck out. -/
def isScattered (ix : Index) : Bool :=
  2 ≤ ix.segments.length || ix.segments.any Segment.hasDeletes

/-- Merges all segments into one. It takes the place of the first of them among the writer's
removals. -/
def consolidate (ix : Index) : Index :=
  let merged : Segment := {
    id := ix.nextId
    entries := ix.documents.map fun d => ⟨d, true⟩
    deleteStamp := none
    reached := (ix.segments.head?.map Segment.reached).getD 0 }
  { ix with
    segments := if merged.entries.isEmpty then [] else [merged]
    nextId := ix.nextId + 1 }

/-- Drops all segments. -/
def clear (ix : Index) : Index := { ix with segments := [] }

/-- Whether a value can be held by a field. Fields that are not indexed hold anything, text fields
pass over numbers, and number fields take numbers only. -/
def fits (f : Field) : FieldValue → Bool
  | .text _ => !f.isIndexed || f.type == .text
  | .int _ => !f.isIndexed || f.type == .text || f.type == .integer

/-- Whether every value of a document can be held by its field. -/
def accepts (schema : Schema) (d : Document) : Bool :=
  d.values.all fun v =>
    match schema.field? v.1 with
    | some f => fits f v.2
    | none => true

theorem place_perm (newestFirst : Bool) (s : Segment) (segments : List Segment) :
    (place newestFirst s segments).Perm (s :: segments) := by
  induction segments with
  | nil => exact .refl _
  | cons t rest ih =>
    unfold place
    split
    · exact .refl _
    · exact (ih.cons t).trans (.swap s t rest)

/-- Arranging drops the segments without documents, and changes the order of the others. -/
theorem arrange_perm (newestFirst : Bool) (segments : List Segment) :
    (arrange newestFirst segments).Perm (segments.filter fun s => !s.live.isEmpty) := by
  unfold arrange
  induction segments.filter fun s => !s.live.isEmpty with
  | nil => exact .nil
  | cons s rest ih => exact (place_perm newestFirst s _).trans (ih.cons s)

end Index

end EventCatalog
