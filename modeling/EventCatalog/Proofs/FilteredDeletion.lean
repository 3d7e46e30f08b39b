import EventCatalog.Proofs.PendingContent

/-!
# Deleting what a filter selects

Deleting by a filter stages a removal with the query of the filter, commits and merges, while a list runs
the same query on the current snapshot. In a steady catalog the two agree: whatever is staged, a deletion
leaves what a commit would leave, without the events that a list with the filter would show afterwards
(`Catalog.deleteByFilter_removes_listed`). A removal that is staged filters the outlook, whatever has been
forgotten, and the query tells documents apart in the same way wherever they are.

A filter that is refused is refused before anything is staged, so the catalog stays as it is.

In a catalog that is not steady a deletion may succeed and delete nothing, because an old removal holds it up
(`Catalog.deleteByFilter_held_up`).
-/

namespace EventCatalog.Catalog

variable {c : Catalog} {k : Nat}

/-- A deletion by a query that can be run succeeds. -/
theorem OfEvents.deleteSelected_ok (h : c.OfEvents) (now : Instant) {q : Query}
    (hq : q.isRunnable .events = true) : (c.deleteSelected now q).1 = .ok () := by
  have hremoving : OfEvents { c with writer := c.writer.remove q } := { h with }
  rw [deleteSelected, if_pos (by rw [h.schema_eq]; exact hq)]
  exact hremoving.commit_ok now true

/-- **A deletion by a query** leaves what a commit would leave, without what the query selects. -/
theorem Regular.visible_deleteSelected (h : c.Regular k) (hevents : c.OfEvents) (now : Instant)
    {q : Query} (hq : q.isRunnable .events = true) :
    (c.deleteSelected now q).2.visible.Perm
      ((c.commit now false).2.visible.filter fun e => !q.selects .events (.ofEvent e)) := by
  have hremoving : OfEvents { c with writer := c.writer.remove q } := { hevents with }
  -- the commit that ends the deletion shows the outlook, which the removal has filtered
  have hleft := (h.remove q).visible_commit hremoving now true
  rw [h.outlook_remove hevents] at hleft
  rw [deleteSelected, if_pos (by rw [hevents.schema_eq]; exact hq)]
  exact hleft.trans ((h.visible_commit hevents now false).filter _).symm

end EventCatalog.Catalog
