import EventCatalog.Index.Snapshot
import EventCatalog.Search.Sort

/-!
# Collecting from a snapshot

What is taken from the documents of a snapshot that a query selects: how many there are, the first
of them in a given order, how many there are of each severity, and the worst severity.
-/

namespace EventCatalog

/-- The numbers of events by severity, without zeros, the least severe first. -/
abbrev SeverityCounts := List (Severity × Nat)

namespace Snapshot

/-- Runs a query if the index can run it. The outcome is the selected documents by segment, in the
order in which they are searched. -/
def run (schema : Schema) (s : Snapshot) (q : Query) : Option (List (List Document)) :=
  if q.isRunnable schema then
    some (s.segments.map fun seg => seg.live.filter fun d => q.selects schema d)
  else none

/-- The selected documents. -/
def matching (schema : Schema) (s : Snapshot) (q : Query) : List Document :=
  s.documents.filter fun d => q.selects schema d

/-- Puts the documents with the greater keys first, and keeps the order of those with equal
keys. -/
def sorted (schema : Schema) (sort : List SortBy) (documents : List Document) : List Document :=
  let keyed := documents.map fun d => (d.sortKey schema sort, d)
  (keyed.mergeSort fun a b => SortKey.cmp a.1 b.1 != .lt).map Prod.snd

/-- Whether the index has a column of severities. -/
def hasSeverityColumn (schema : Schema) : Bool :=
  match schema.field? Field.severity with
  | some f => f.type == .integer && f.fast
  | none => false

/-- The severity codes of documents; a document has the first of its values. -/
def severityCodes (documents : List Document) : List Int :=
  documents.filterMap fun d => (d.ints Field.severity).head?

/-- Adds to the number that a table has of a key. The keys of a table ascend. -/
def addCount {κ : Type} [Ord κ] (key : κ) (n : Nat) : List (κ × Nat) → List (κ × Nat)
  | [] => [(key, n)]
  | (k, m) :: rest =>
    match compare key k with
    | .lt => (key, n) :: (k, m) :: rest
    | .eq => (k, m + n) :: rest
    | .gt => (k, m) :: addCount key n rest

/-- How often a segment has each code. -/
def codeCounts (codes : List Int) : List (Int × Nat) := codes.foldl (fun counts n => addCount n 1 counts) []

/-- Adds what a segment has counted of a code, if it is one of a severity. -/
def mergeCount (counts : SeverityCounts) (p : Int × Nat) : SeverityCounts :=
  match Severity.ofCode? p.1 with
  | some s => addCount s p.2 counts
  | none => counts

/-- The counts of the segments, added up. -/
def mergeCounts (countsBySegment : List (List (Int × Nat))) : SeverityCounts :=
  countsBySegment.flatten.foldl mergeCount []

/-- The greatest of numbers. -/
def greatest? (codes : List Int) : Option Int :=
  codes.foldl (fun best n => some (match best with | some m => max m n | none => n)) none

/-- The worst severity: of each segment the greatest code counts, if it is one of a severity. -/
def worstSeverity (codesBySegment : List (List Int)) : Option Severity :=
  let worst := codesBySegment.filterMap fun codes => (greatest? codes).bind Severity.ofCode?
  worst.foldl (fun best s => some (match best with
    | some b => if b ≤ s then s else b
    | none => s)) none

/-- Whether severities can be collected: every segment has to have the column. -/
def canCollectSeverities (schema : Schema) (s : Snapshot) : Bool :=
  s.segments.isEmpty || hasSeverityColumn schema

/-- The numbers of selected documents by severity; nothing if the query cannot be run or there is no
column of severities. -/
def severityCounts? (schema : Schema) (s : Snapshot) (q : Query) : Option SeverityCounts := do
  let selected ← s.run schema q
  if s.canCollectSeverities schema then
    return mergeCounts ((selected.map severityCodes).map codeCounts)
  none

/-- The worst severity of the selected documents; nothing if the query cannot be run or there is no
column of severities. -/
def worstSeverity? (schema : Schema) (s : Snapshot) (q : Query) : Option (Option Severity) := do
  let selected ← s.run schema q
  if s.canCollectSeverities schema then return worstSeverity (selected.map severityCodes)
  none

end Snapshot

end EventCatalog
