import EventCatalog.Index.Collect
import EventCatalog.Proofs.EventDocument
import EventCatalog.Proofs.SortKeys

/-!
# The order of events

What a list is sorted by can be said of the events themselves, without their documents and columns:
`Event.sortValue` is what an event has for a field, `SortValue.Below` the order of these values, and
`Event.Before` the order of events by several fields, each in its own direction, where the first
difference decides.

The index compares keys of documents. On the documents of events that comes to the same
(`Event.cmp_sortKey`, `Event.compareBy_eq_gt_iff`). So events can be taken by their keys
(`Event.keyFor`), which are in a linear order: the event with the greater key comes first
(`Event.keyFor_lt_iff`), and those with the same key are tied (`Event.keyFor_eq_iff`).
-/

namespace EventCatalog

/-- What an event is sorted by: numbers as they are, times in whole milliseconds, texts in lower case,
and nothing for a sub-element that is not given. -/
def Event.sortValue (e : Event) : SortField → SortValue
  | .count => .int e.count.toNat
  | .element => .text (Text.lower e.element)
  | .subElement => if e.subElement.isEmpty then .missing else .text (Text.lower e.subElement)
  | .eventClass => .text (normalizeClass e.eventClass)
  | .summary => .text (Text.lower e.summary)
  | .firstSeen => .int e.firstSeen.millis
  | .lastSeen => .int e.lastSeen.millis
  | .severity => .int e.severity.code
  | .status => .int e.status.code
  | .statusChange => .int e.statusChange.millis
  | .updateTime => .int e.updateTime.millis

namespace Document

/-- The event index has a column for every field to sort by. -/
private theorem sortValue_events (d : Document) (f : SortField) :
    d.sortValue .events f.column = match f.column with
      | .int field => ((d.ints field).head?.map .int).getD .missing
      | .text field => ((d.texts field).head?.map .text).getD .missing := by
  cases f <;> rfl

/-- The document of an event has in every column what the event is sorted by. -/
theorem sortValue_ofEvent (e : Event) (f : SortField) :
    (ofEvent e).sortValue .events f.column = e.sortValue f := by
  rw [sortValue_events]
  cases f
  all_goals
    simp only [SortField.column, ints, texts]
    -- a column reads one field, and no two fields share a name with it
    rw [get_ofEvent e rfl rfl rfl rfl]
    -- only the sub-element may be missing from a document
    cases hs : e.subElement.isEmpty with
    | true =>
      simp only [Event.sortValue, hs, if_true]
      rfl
    | false =>
      simp only [Event.sortValue, hs, Bool.false_eq_true, if_false]
      rfl

end Document

/-! ### The order of events -/

namespace Event

/-- An event comes before another: the first field in which they differ decides. -/
def Before : List SortBy → Event → Event → Prop
  | [], _, _ => False
  | s :: rest, a, b =>
    s.direction.Puts (a.sortValue s.field) (b.sortValue s.field) ∨
      (a.sortValue s.field = b.sortValue s.field ∧ Before rest a b)

/-- A sort does not tell events apart. -/
def Tied (sort : List SortBy) (a b : Event) : Prop :=
  ∀ s ∈ sort, a.sortValue s.field = b.sortValue s.field

/-- The comparison of events by a sort. The greater event comes first. -/
def compareBy : List SortBy → Event → Event → Ordering
  | [], _, _ => .eq
  | s :: rest, a, b =>
    (SortKey.cmpPart s.direction (a.sortValue s.field) (b.sortValue s.field)).then
      (compareBy rest a b)

/-- The index compares documents of events as the events compare. -/
theorem cmp_sortKey (sort : List SortBy) (a b : Event) :
    SortKey.cmp ((Document.ofEvent a).sortKey .events sort)
      ((Document.ofEvent b).sortKey .events sort) = compareBy sort a b := by
  rw [SortKey.cmp_eq_cmpParts, Document.sortKey, Document.sortKey]
  induction sort with
  | nil => rfl
  | cons s rest ih =>
    -- a part is compared by the values that the documents have in its column
    simp only [List.map_cons, SortKey.cmpParts] at ih ⊢
    rw [ih, Document.sortValue_ofEvent, Document.sortValue_ofEvent]
    rfl

/-- The greater event comes first, as its fields say. -/
theorem compareBy_eq_gt_iff (sort : List SortBy) (a b : Event) :
    compareBy sort a b = .gt ↔ Before sort a b := by
  induction sort with
  | nil => simp [compareBy, Before]
  | cons s rest ih =>
    rw [compareBy, Before, Ordering.then_eq_gt, SortKey.cmpPart_eq_gt_iff,
      SortKey.cmpPart_eq_eq_iff, ih]

/-- Events that compare equal are those that the sort does not tell apart. -/
theorem compareBy_eq_eq_iff (sort : List SortBy) (a b : Event) :
    compareBy sort a b = .eq ↔ Tied sort a b := by
  induction sort with
  | nil => simp [compareBy, Tied]
  | cons s rest ih =>
    rw [compareBy, Ordering.then_eq_eq, SortKey.cmpPart_eq_eq_iff, ih, Tied, Tied,
      List.forall_mem_cons]

/-- What an event is sorted by. -/
def keyFor (sort : List SortBy) (e : Event) : SortKey.For sort :=
  (Document.ofEvent e).keyFor .events sort

/-- **The event with the greater key comes first.** -/
theorem keyFor_lt_iff {sort : List SortBy} {a b : Event} :
    b.keyFor sort < a.keyFor sort ↔ Before sort a b := by
  rw [SortKey.For.lt_iff_eq_gt, ← compareBy_eq_gt_iff, ← cmp_sortKey]
  rfl

/-- Events have the same key if the sort does not tell them apart. -/
theorem keyFor_eq_iff {sort : List SortBy} {a b : Event} :
    a.keyFor sort = b.keyFor sort ↔ Tied sort a b := by
  rw [SortKey.For.ext_iff, ← SortKey.For.cmp_eq_eq_iff, ← compareBy_eq_eq_iff, ← cmp_sortKey]
  rfl

end Event

end EventCatalog
