import EventCatalog.Proofs.Batches

/-!
# Tables and their queues

What a table says of an event after a change (`EventTable.get?_upsert`, `EventTable.get?_remove`), and what
a change does to the queue: it appends one entry of the event, with a number of its own, and concerns no
other event (`EventTable.Touched`). The numbers of a queue increase (`EventTable.Numbered`), so that deleting
entries by number deletes no others.

A fetch joins the entries with the table as it is at that time. In a table of recent events every row
therefore finds what the table holds, however old its entry is (`EventTable.lookup_applied_fetch`); in the
archive only a row does whose entry has recorded the time at which the event was last seen
(`EventTable.join`).
-/

namespace EventCatalog

namespace EventTable

variable {t t' : EventTable} {u v : Uuid}

/-! ### What a table holds -/

/-- An event is held under its own identifier. -/
theorem uuid_of_get? {e : Event} (h : t.get? u = some e) : e.uuid = u := by
  unfold get? at h
  have huuid := List.find?_some h
  exact beq_iff_eq.1 huuid

/-- Taking out one event leaves the others. -/
theorem find?_eventsWithout (t : EventTable) (u v : Uuid) :
    ((t.eventsWithout v).find? fun e => e.uuid == u) = if u = v then none else t.get? u := by
  unfold eventsWithout get?
  rw [List.find?_filter]
  -- an event that is left has an identifier other than `v`
  by_cases huv : u = v
  · rw [if_pos huv, List.find?_eq_none]
    intro e _
    rw [decide_eq_true_iff, bne_iff_ne, beq_iff_eq, huv]
    exact fun h => h.1 h.2
  · rw [if_neg huv]
    congr 1
    funext e
    rw [Bool.eq_iff_iff, decide_eq_true_iff, bne_iff_ne, beq_iff_eq]
    refine and_iff_right_of_imp ?_
    rintro rfl
    exact huv

theorem get?_upsert (t : EventTable) (e : Event) (u : Uuid) :
    (t.upsert e).2.get? u = if u = e.uuid then some e else t.get? u := by
  change ((t.eventsWithout e.uuid ++ [e]).find? fun f => f.uuid == u) = _
  rw [List.find?_append, find?_eventsWithout]
  by_cases hu : u = e.uuid
  -- the earlier version has been taken out, so the one at the end is found
  · rw [if_pos hu, if_pos hu, hu, List.find?_singleton, if_pos (beq_self_eq_true _)]
    rfl
  · have hne : (e.uuid == u) = false := beq_eq_false_iff_ne.2 (Ne.symm hu)
    rw [if_neg hu, if_neg hu, List.find?_singleton, hne]
    exact Option.or_none

theorem get?_remove (t : EventTable) (now : Instant) (u v : Uuid) :
    (t.remove now v).2.get? u = if u = v then none else t.get? u := by
  unfold remove
  split
  -- nothing was there, and nothing is there now
  · next hnone =>
    by_cases huv : u = v
    · rw [if_pos huv, huv, hnone]
    · rw [if_neg huv]
  · exact find?_eventsWithout t u v

/-! ### Numbers of entries -/

/-- The numbers of the entries increase, and the next number is larger than all of them. -/
structure Numbered (t : EventTable) : Prop where
  sorted : t.queuedIds.Pairwise (· < ·)
  lt_nextId : ∀ q ∈ t.queue, q.id < t.nextId

/-- Two entries of one number are the same. -/
theorem Numbered.eq_of_id_eq (h : t.Numbered) {q q' : QueueEntry} (hq : q ∈ t.queue)
    (hq' : q' ∈ t.queue) (hid : q.id = q'.id) : q = q' := by
  -- numbers that increase are all different
  have hnodup : t.queuedIds.Nodup := h.sorted.imp fun hlt => Int.ne_of_lt hlt
  exact List.inj_on_of_nodup_map hnodup hq hq' hid

/-- Deleting entries leaves the numbers of the others. -/
theorem Numbered.deleteEntries (h : t.Numbered) (ids : List Int) :
    (t.deleteEntries ids).2.Numbered where
  sorted := h.sorted.sublist (List.filter_sublist.map _)
  lt_nextId := fun q hq => h.lt_nextId q (List.mem_of_mem_filter hq)

theorem numbered_empty (name : String) (isArchive : Bool) : (empty name isArchive).Numbered where
  sorted := .nil
  lt_nextId := fun _ hq => absurd hq List.not_mem_nil

/-- A change that concerns one event only, and has appended an entry of it to the queue. -/
structure Touched (t : EventTable) (v : Uuid) (entry : QueueEntry) (t' : EventTable) : Prop where
  uuid_eq : entry.uuid = v
  id_eq : entry.id = t.nextId
  queue_eq : t'.queue = t.queue ++ [entry]
  nextId_eq : t'.nextId = t.nextId + 1
  isArchive_eq : t'.isArchive = t.isArchive
  get?_eq : ∀ u, u ≠ v → t'.get? u = t.get? u

theorem Touched.numbered {entry : QueueEntry} (h : t.Touched v entry t') (ht : t.Numbered) :
    t'.Numbered where
  sorted := by
    unfold queuedIds
    rw [h.queue_eq, List.map_append, List.pairwise_append]
    -- the new entry has the next number, and that is above all numbers in use
    refine ⟨ht.sorted, List.pairwise_singleton _ _, ?_⟩
    intro i hi j hj
    obtain ⟨q, hq, rfl⟩ := List.mem_map.1 hi
    rw [List.mem_singleton.1 hj, h.id_eq]
    exact ht.lt_nextId q hq
  lt_nextId := by
    intro q hq
    rw [h.nextId_eq]
    rw [h.queue_eq, List.mem_append, List.mem_singleton] at hq
    rcases hq with hq | rfl
    · have := ht.lt_nextId q hq
      omega
    · rw [h.id_eq]
      omega

/-- An entry that is made by hand touches no event at all. -/
theorem touched_enqueue (t : EventTable) (u : Uuid) (time : Instant) (seen : Option Instant) :
    t.Touched u ⟨t.nextId, u, time, seen⟩ (t.enqueue u time seen).2 :=
  ⟨rfl, rfl, rfl, rfl, rfl, fun _ _ => rfl⟩

theorem touched_upsert (t : EventTable) (e : Event) :
    t.Touched e.uuid ⟨t.nextId, e.uuid, e.updateTime, t.recordedSight e⟩ (t.upsert e).2 where
  uuid_eq := rfl
  id_eq := rfl
  queue_eq := rfl
  nextId_eq := rfl
  isArchive_eq := rfl
  get?_eq := by
    intro u hu
    rw [get?_upsert, if_neg hu]

/-- Removing an event that is not there does nothing. -/
theorem remove_of_get?_eq_none (now : Instant) (h : t.get? v = none) : (t.remove now v).2 = t := by
  unfold remove
  rw [h]

theorem touched_remove (now : Instant) {e : Event} (h : t.get? v = some e) :
    t.Touched v ⟨t.nextId, v, now, t.recordedSight e⟩ (t.remove now v).2 := by
  have hremove : (t.remove now v).2 =
      ({ t with events := t.eventsWithout v }.enqueue v now (t.recordedSight e)).2 := by
    unfold remove
    rw [h]
  have hget : ∀ u, u ≠ v → (t.remove now v).2.get? u = t.get? u := by
    intro u hu
    rw [get?_remove, if_neg hu]
  rw [hremove] at hget ⊢
  exact ⟨rfl, rfl, rfl, rfl, rfl, hget⟩

/-! ### Fetching -/

/-- The entries that were made at a time or before. -/
def due (t : EventTable) (latest : Option Instant) : List QueueEntry := t.queue.filter fun q => isDue q latest

/-- The entries that were made later. -/
def late (t : EventTable) (latest : Option Instant) : List QueueEntry := t.queue.filter fun q => !isDue q latest

/-- Entries with what they find in the table. -/
def rows (t : EventTable) (entries : List QueueEntry) : List QueueRow := entries.map fun q => ⟨q, t.join q⟩

theorem ids_rows (t : EventTable) (entries : List QueueEntry) :
    ((t.rows entries).map fun r => r.entry.id) = entries.map QueueEntry.id := List.map_map

theorem uuids_rows (t : EventTable) (entries : List QueueEntry) :
    ((t.rows entries).map fun r => r.entry.uuid) = entries.map QueueEntry.uuid := List.map_map

theorem keyed_of_mem_rows {entries : List QueueEntry} : ∀ r ∈ t.rows entries, r.Keyed := by
  intro r hr e he
  obtain ⟨q, -, rfl⟩ := List.mem_map.1 hr
  rw [join, Option.filter_eq_some_iff] at he
  exact uuid_of_get? he.1

/-- The first entries that are due are fetched. -/
theorem fetch_eq_rows (t : EventTable) (limit : Nat) (latest : Option Instant) :
    t.fetch limit latest = t.rows ((t.due latest).take limit) := rfl

theorem keyed_of_mem_fetch {limit : Nat} {latest : Option Instant} :
    ∀ r ∈ t.fetch limit latest, r.Keyed := keyed_of_mem_rows

/-- A fetched row is an entry of the queue with what it finds in the table. -/
theorem mem_fetch {limit : Nat} {latest : Option Instant} {r : QueueRow}
    (h : r ∈ t.fetch limit latest) : r.entry ∈ t.queue ∧ r.event = t.join r.entry := by
  obtain ⟨q, hq, rfl⟩ := List.mem_map.1 h
  exact ⟨List.mem_of_mem_filter (List.mem_of_mem_take hq), rfl⟩

/-- Rows are fetched in the order of the queue. -/
theorem ids_fetch_sublist (t : EventTable) (limit : Nat) (latest : Option Instant) :
    ((t.fetch limit latest).map fun r => r.entry.id).Sublist t.queuedIds := by
  unfold fetch queuedIds
  rw [List.map_map]
  exact ((List.take_sublist _ _).trans List.filter_sublist).map _

/-- A row of a table of recent events finds the event as it is now. -/
theorem join_of_recent (h : t.isArchive = false) (q : QueueEntry) : t.join q = t.get? q.uuid := by
  simp only [join, h, Bool.not_false, Bool.true_or]
  cases t.get? q.uuid with
  | none => rfl
  | some e => rfl

/-- A row of the archive finds an event while it was last seen when the entry says. -/
theorem join_eq_some_iff (h : t.isArchive = true) {q : QueueEntry} {e : Event} :
    t.join q = some e ↔ t.get? q.uuid = some e ∧ q.lastSeen = some e.lastSeen := by
  rw [join, Option.filter_eq_some_iff, h, Bool.not_true, Bool.false_or, beq_iff_eq]

/-- **A batch brings up to date every event that one of its rows is about.** -/
theorem lookup_applied_fetch (h : t.isArchive = false) (limit : Nat) (latest : Option Instant)
    (m : EventMap) (u : Uuid) :
    ((Batch.ofRows (t.fetch limit latest)).applied m).lookup u =
      if ∃ r ∈ t.fetch limit latest, r.entry.uuid = u then t.get? u else m.lookup u := by
  rw [Batch.lookup_applied keyed_of_mem_fetch]
  cases hdecider : Batch.decider (t.fetch limit latest) u with
  | none =>
    rw [if_neg]
    rintro ⟨r, hr, hu⟩
    exact Batch.forall_ne_of_decider hdecider r hr hu
  | some r =>
    obtain ⟨hr, hu⟩ := Batch.mem_of_decider hdecider
    rw [if_pos ⟨r, hr, hu⟩]
    change r.event = _
    rw [(mem_fetch hr).2, join_of_recent h, hu]

/-- Without a latest time all entries are due. -/
theorem due_none (t : EventTable) : t.due none = t.queue := List.filter_eq_self.2 fun _ _ => rfl

/-- So the first of them are fetched. -/
theorem fetch_none (t : EventTable) (limit : Nat) :
    t.fetch limit none = (t.queue.take limit).map fun q => ⟨q, t.join q⟩ := by
  rw [fetch_eq_rows, due_none]
  rfl

/-! ### Deleting what was fetched -/

/-- Of entries with numbers of their own, those with the numbers of the first ones are the first ones. -/
theorem filter_ids_take {l : List QueueEntry} (h : (l.map QueueEntry.id).Nodup) (n : Nat) :
    (l.filter fun q => !((l.take n).map QueueEntry.id).contains q.id) = l.drop n := by
  have happ := h
  rw [← List.take_append_drop n l, List.map_append, List.nodup_append] at happ
  conv => lhs; rw [← List.take_append_drop n l]
  -- of the first entries none is left, and of the others all are, since their numbers are different
  rw [List.filter_append, List.take_append_drop, List.filter_eq_nil_iff.2, List.nil_append,
    List.filter_eq_self.2]
  · intro q hq
    rw [Bool.not_eq_true', List.contains_eq_mem, decide_eq_false_iff_not]
    exact fun hmem => happ.2.2 _ hmem _ (List.mem_map_of_mem hq) rfl
  · intro q hq
    rw [Bool.not_eq_true', List.contains_eq_mem, decide_eq_false_iff_not, not_not]
    exact List.mem_map_of_mem hq

/-- Deleting the first entries leaves the others. -/
theorem deleteEntries_take (h : t.Numbered) (limit : Nat) :
    (t.deleteEntries ((t.queue.take limit).map QueueEntry.id)).2 =
      { t with queue := t.queue.drop limit } := by
  have hkept := filter_ids_take (h.sorted.imp fun hlt => Int.ne_of_lt hlt) limit
  change { t with queue := _ } = _
  rw [hkept]

/-- The table after the entries of a fetch are deleted. -/
def fetched (t : EventTable) (limit : Nat) (latest : Option Instant) : EventTable :=
  (t.deleteEntries ((t.fetch limit latest).map fun r => r.entry.id)).2

variable {limit : Nat} {latest : Option Instant}

theorem nodup_fetched (h : t.queuedIds.Nodup) : (t.fetched limit latest).queuedIds.Nodup :=
  h.sublist (List.filter_sublist.map _)

/-- **Deleting the entries of a fetch** leaves the others that are due. -/
theorem due_fetched (h : t.queuedIds.Nodup) : (t.fetched limit latest).due latest = (t.due latest).drop limit := by
  have hdue : ((t.due latest).map QueueEntry.id).Nodup := h.sublist (List.filter_sublist.map _)
  rw [← filter_ids_take hdue limit, ← ids_rows, ← fetch_eq_rows]
  unfold due fetched deleteEntries
  rw [List.filter_filter, List.filter_filter]
  exact List.filter_congr fun q _ => Bool.and_comm _ _

/-- So it does those that are late. -/
theorem late_fetched (h : t.queuedIds.Nodup) : (t.fetched limit latest).late latest = t.late latest := by
  unfold late fetched deleteEntries
  rw [List.filter_filter]
  refine List.filter_congr fun q hq => ?_
  cases hlate : isDue q latest with
  | true => rfl
  | false =>
    -- an entry with a number of those that were fetched is one of them, and due
    rw [Bool.not_false, Bool.true_and, Bool.not_eq_true', fetch_eq_rows, ids_rows, List.contains_eq_mem,
      decide_eq_false_iff_not]
    intro hmem
    obtain ⟨q', hq', hid⟩ := List.mem_map.1 hmem
    obtain ⟨hqueue, hdue⟩ := List.mem_filter.1 (List.mem_of_mem_take hq')
    rw [List.inj_on_of_nodup_map h hqueue hq hid, hlate] at hdue
    exact nomatch hdue

/-- Where nothing is due, all entries are late. -/
theorem late_eq_queue (h : t.due latest = []) : t.late latest = t.queue := by
  refine List.filter_eq_self.2 fun q hq => ?_
  rw [Bool.not_eq_true', ← Bool.not_eq_true]
  exact List.filter_eq_nil_iff.1 h q hq

/-- **The last fetch** takes all that is due, and leaves what is late. -/
theorem fetched_of_le (h : t.queuedIds.Nodup) (hall : (t.due latest).length ≤ limit) :
    t.fetched limit latest = { t with queue := t.late latest } := by
  -- nothing that is due is left, so all that is left is late
  have hnone : (t.fetched limit latest).due latest = [] := by
    rw [due_fetched h, List.drop_eq_nil_of_le hall]
  have hlate : (t.fetched limit latest).late latest = t.late latest := late_fetched h
  rw [← hlate, late_eq_queue hnone]
  rfl

theorem length_due_add_late (t : EventTable) (latest : Option Instant) :
    (t.due latest).length + (t.late latest).length = t.queue.length :=
  (List.length_eq_length_filter_add _).symm

/-- As many entries are deleted as were fetched. -/
theorem deleteEntries_fetch (h : t.queuedIds.Nodup) :
    t.deleteEntries ((t.fetch limit latest).map fun r => r.entry.id) =
      ((t.fetch limit latest).length, t.fetched limit latest) := by
  refine Prod.ext ?_ rfl
  have hfetched : (t.fetch limit latest).length = ((t.due latest).take limit).length := List.length_map _
  -- entries are due or late; fetching takes the first of those that are due
  have hbefore := t.length_due_add_late latest
  have hafter := (t.fetched limit latest).length_due_add_late latest
  rw [due_fetched h, late_fetched h, List.length_drop] at hafter
  change t.queue.length - (t.fetched limit latest).queue.length = _
  rw [hfetched, List.length_take]
  omega

end EventTable

/-! ### A table behind its drain -/

/-- The table is changed. -/
def Drain.withTable (d : Drain) (t : EventTable) : Drain :=
  { d with store := { d.store with table := t } }

theorem Drain.store_withTable {d : Drain} {t : EventTable} (h : d.store = .ofTable t)
    (t' : EventTable) : (d.withTable t').store = .ofTable t' := by
  change { d.store with table := t' } = Connection.ofTable t'
  rw [h]
  rfl

/-- Where no call of the store fails, a deletion is done. -/
theorem Drain.deleteEntries_ofTable {d : Drain} {t : EventTable} (h : d.store = .ofTable t)
    (ids : List Int) :
    d.deleteEntries ids = (.ok (t.deleteEntries ids).1, d.withTable (t.deleteEntries ids).2) := by
  have hstore := Drain.store_withTable h (t.deleteEntries ids).2
  have hdelete : d.store.deleteEntries ids =
      (.ok (t.deleteEntries ids).1, .ofTable (t.deleteEntries ids).2) := by
    rw [h]
    rfl
  unfold Drain.deleteEntries
  rw [hdelete, ← hstore]
  rfl

end EventCatalog
