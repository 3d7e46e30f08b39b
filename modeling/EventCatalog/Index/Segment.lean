import EventCatalog.Search.Query

/-!
# Segments

An index holds its documents in segments. A segment is written once; later only documents of it
are struck out, and a stamp tells the segment apart from what it was before. Segments whose
documents are all struck out are dropped.

A segment knows how far it has got with the removals that the writer has taken up since it was
opened (`Segment.reached`).
-/

namespace EventCatalog

/-- A document of a segment, and whether it still counts. -/
structure Entry where
  document : Document
  live : Bool
deriving DecidableEq, Repr, Inhabited

/-- A segment of an index. -/
structure Segment where
  /-- No two segments of an index ever have the same number. -/
  id : Nat
  entries : List Entry
  /-- The number of the last commit that struck out documents of the segment. -/
  deleteStamp : Option Nat
  /-- How many of the writer's removals have been carried out on the segment. -/
  reached : Nat
deriving DecidableEq, Repr, Inhabited

namespace Segment

/-- The documents that still count. -/
def live (s : Segment) : List Document :=
  s.entries.filterMap fun e => if e.live then some e.document else none

/-- The number of documents, struck out or not. -/
def size (s : Segment) : Nat := s.entries.length

/-- Whether any document is struck out. -/
def hasDeletes (s : Segment) : Bool := s.entries.any fun e => !e.live

/-- What tells the contents of segments apart. -/
def fingerprint (s : Segment) : Nat × Option Nat := (s.id, s.deleteStamp)

/-- Strikes out the documents that are selected. -/
def strike (selected : Document → Bool) (entries : List Entry) : List Entry :=
  entries.map fun e => { e with live := e.live && !selected e.document }

/-- The order in which segments are searched: the largest first, and of equally large ones the oldest or
the newest. -/
def precedes (newestFirst : Bool) (a b : Segment) : Bool :=
  b.size < a.size || (a.size == b.size && if newestFirst then b.id ≤ a.id else a.id ≤ b.id)

theorem live_strike (selected : Document → Bool) (s : Segment) :
    ({ s with entries := strike selected s.entries } : Segment).live =
      s.live.filter fun d => !selected d := by
  simp only [live, strike]
  induction s.entries with
  | nil => rfl
  | cons e rest ih =>
    by_cases h : e.live = true <;> by_cases hs : selected e.document = true <;>
      simp_all

end Segment

end EventCatalog
