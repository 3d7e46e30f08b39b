import EventCatalog.Search.Sort

/-!
# List requests

A request asks for one page of the events that a filter selects, in a given order. Limits and
offsets that make no sense are replaced: a limit that is not between one and the greatest page
size counts as that size, a negative offset as none.
-/

namespace EventCatalog

/-- A request for a page of events. -/
structure Request where
  filter : Option Filter := none
  sort : List SortBy := []
  limit : Option Int := none
  offset : Option Int := none
deriving DecidableEq, Repr, Inhabited

/-- A page of events. -/
structure Page where
  events : List Event
  /-- The number of events that the filter selects. -/
  total : Nat
  limit : Nat
  /-- Where the next page starts, if there are more events. -/
  nextOffset : Option Nat
deriving DecidableEq, Repr, Inhabited

namespace Request

/-- Decodes a request. -/
def decoder : Json.Decoder Request :=
  (Request.mk <$> Json.Record.defaulted "filter" (Json.optional Filter.decoder) none
    <*> Json.Record.defaulted "sort" (Json.list SortBy.decoder) []
    <*> Json.Record.defaulted "limit" (Json.optional Json.signed64) none
    <*> Json.Record.defaulted "offset" (Json.optional Json.signed64) none).decode
    "struct EventSummaryRequest"

/-- The size of the page, for a greatest page size. -/
def effectiveLimit (r : Request) (greatest : Nat) : Nat :=
  match r.limit with
  | some n => if 1 ≤ n ∧ n ≤ greatest then n.toNat else greatest
  | none => greatest

/-- The number of events before the page. -/
def effectiveOffset (r : Request) : Nat := (r.offset.getD 0).toNat

/-- The number of events up to the end of the page. -/
def window (r : Request) (greatest : Nat) : Nat := r.effectiveLimit greatest + r.effectiveOffset

/-- How many of the selected events are collected, of an index with so many documents: never more
than there can be, but one at least. -/
def collected (r : Request) (greatest documents : Nat) : Nat :=
  max 1 (min (r.window greatest) documents)

/-- The order of the events. -/
def effectiveSort (r : Request) : List SortBy :=
  if r.sort.isEmpty then [SortBy.latestFirst] else r.sort

end Request

/-- A page as JSON. -/
def Page.toJson (p : Page) : Json := .obj [
  ("events", .arr (p.events.map Event.toJson)),
  ("total", .int p.total),
  ("limit", .int p.limit),
  ("next_offset", Json.ofOption (fun n => .int n) p.nextOffset)]

end EventCatalog
