import EventCatalog.Proofs.Tables

/-!
# The catalog mirrors the table of recent events

A `Mirror` is a table, the drain of its queue, and the catalog that the drain feeds. It runs step by step:
the table changes, a drain feeds the next rows to the catalog, and later the rows of some drain are deleted,
or never. Changes may fall between a drain and the deletion of its rows, and rows that were not deleted are
delivered again.

**The invariant** (`Mirror.InStep`) is that for every event either the catalog holds what the table holds,
or there is an entry in the queue that no drain has returned yet. A change of the table may break the first,
but then it has appended an entry. A drain may return the last such entry of an event, but a row finds what
the table holds at that very time, and so restores the first. A deletion only ever takes entries that a
drain has returned.

So an event of which no entry is queued is always found in the catalog just as the table has it
(`Mirror.find_eq_get?`).
-/

namespace EventCatalog

/-- A table, the drain of its queue, and the catalog that is fed. -/
structure Mirror where
  drain : Drain
  feed : CatalogFeed
  /-- The numbers of the rows of every drain, the first drain first. -/
  returned : List (List Int)

/-- Something that happens to the table, its queue or the catalog. -/
inductive Mirror.Step where
  | upsert (e : Event)
  | remove (now : Instant) (u : Uuid)
  /-- Makes an entry by hand. -/
  | enqueue (u : Uuid) (time : Instant) (seen : Option Instant)
  /-- Feeds rows to the catalog, through a new handler or the one of the last drain. -/
  | drain (now : Instant) (limit : Nat) (latest : Option Instant) (anew : Bool)
  /-- Deletes the rows that the drain of this number has returned. -/
  | delete (n : Nat)

namespace Mirror

/-- The table, as it can be read. -/
def table (w : Mirror) : EventTable := w.drain.table

/-- The catalog, as it can be read. -/
def catalog (w : Mirror) : Catalog := w.feed.catalog

/-- The table is changed. -/
def withTable (w : Mirror) (t : EventTable) : Mirror :=
  { w with drain := w.drain.withTable t }

/-- A table of recent events without any, and a catalog that has not been fed yet. -/
def fresh (name : String) (observers : List Observer) (c : Catalog) (now : Instant) : Mirror where
  drain := .ofStore (.ofTable (.empty name false)) observers
  feed := ⟨c, .zero, now⟩
  returned := []

/-- The handler that a drain feeds. -/
def handler (w : Mirror) (now : Instant) (anew : Bool) : CatalogFeed where
  catalog := w.catalog
  tally := if anew then .zero else w.feed.tally
  now := now

/-- Whether a step succeeded, and what has come of it. -/
def Step.run (w : Mirror) : Step → Except ServiceError Unit × Mirror
  | upsert e => (.ok (), w.withTable (w.table.upsert e).2)
  | remove now u => (.ok (), w.withTable (w.table.remove now u).2)
  | enqueue u time seen => (.ok (), w.withTable (w.table.enqueue u time seen).2)
  | drain now limit latest anew =>
    match w.drain.run (w.handler now anew) limit latest with
    | (.ok ids, d, f) => (.ok (), ⟨d, f, w.returned ++ [ids]⟩)
    | (.error e, d, f) => (.error e, { w with drain := d, feed := f })
  | delete n =>
    let p := w.drain.deleteEntries (w.returned[n]?.getD [])
    (p.1.map fun _ => (), { w with drain := p.2 })

/-- The mirror after steps, one after the other. -/
def runAll (w : Mirror) (steps : List Step) : Mirror := steps.foldl (fun w s => (s.run w).2) w

/-- For every event, the catalog holds what the table holds, or an entry is queued that no drain has
returned. -/
structure InStep (w : Mirror) (m : EventMap) : Prop where
  store_eq : w.drain.store = .ofTable w.table
  recent : w.table.isArchive = false
  numbered : w.table.Numbered
  tracks : w.catalog.Tracks m m
  kept_eq : w.feed.tally.pendingRemovals = []
  returned_lt : ∀ ids ∈ w.returned, ∀ i ∈ ids, i < w.table.nextId
  up_to_date : ∀ u, m.lookup u = w.table.get? u ∨
    ∃ q ∈ w.table.queue, q.uuid = u ∧ ∀ ids ∈ w.returned, q.id ∉ ids

namespace InStep

variable {w : Mirror} {m : EventMap}

/-- At first there is nothing, neither in the table nor in the catalog. -/
theorem fresh {c : Catalog} (hc : c.Tracks ∅ ∅) (name : String) (observers : List Observer)
    (now : Instant) : InStep (Mirror.fresh name observers c now) ∅ where
  store_eq := rfl
  recent := rfl
  numbered := EventTable.numbered_empty name false
  tracks := hc
  kept_eq := rfl
  returned_lt := fun _ hids => absurd hids List.not_mem_nil
  up_to_date := fun _ => .inl rfl

/-- A change appends an entry of the event that it concerns, and no drain has returned that one. -/
theorem withTable (h : InStep w m) {t : EventTable} {v : Uuid} {entry : QueueEntry}
    (ht : w.table.Touched v entry t) : InStep (w.withTable t) m where
  store_eq := Drain.store_withTable h.store_eq t
  recent := ht.isArchive_eq.trans h.recent
  numbered := ht.numbered h.numbered
  tracks := h.tracks
  kept_eq := h.kept_eq
  returned_lt := by
    intro ids hids i hi
    change i < t.nextId
    have hlt := h.returned_lt ids hids i hi
    rw [ht.nextId_eq]
    omega
  up_to_date := by
    intro u
    change m.lookup u = t.get? u ∨ ∃ q ∈ t.queue, q.uuid = u ∧ ∀ ids ∈ w.returned, q.id ∉ ids
    rw [ht.queue_eq]
    by_cases hu : u = v
    · refine .inr ⟨entry, List.mem_append_right _ List.mem_cons_self, ht.uuid_eq.trans hu.symm, ?_⟩
      intro ids hids hmem
      -- what drains have returned so far are numbers below that of the new entry
      have hlt := h.returned_lt ids hids _ hmem
      rw [ht.id_eq] at hlt
      omega
    · rw [ht.get?_eq u hu]
      refine (h.up_to_date u).imp_right ?_
      rintro ⟨q, hq, hrest⟩
      exact ⟨q, List.mem_append_left _ hq, hrest⟩

/-- A handler that is used again has nothing left over from the drains before. -/
theorem kept_handler (h : InStep w m) (now : Instant) (anew : Bool) :
    (w.handler now anew).tally.pendingRemovals = [] := by
  cases anew with
  | true => rfl
  | false => exact h.kept_eq

/-- An entry that a fetch has not read is not among the numbers that the drain returns. -/
theorem notMem_returned (h : InStep w m) {limit : Nat} {latest : Option Instant} {q : QueueEntry}
    (hq : q ∈ w.table.queue) (hread : ∀ r ∈ w.table.fetch limit latest, r.entry.uuid ≠ q.uuid) :
    q.id ∉ (w.table.fetch limit latest).map fun r => r.entry.id := by
  intro hmem
  obtain ⟨r, hr, hid⟩ := List.mem_map.1 hmem
  -- numbers are not used twice, so it would be one of the rows that were read
  have heq := h.numbered.eq_of_id_eq (EventTable.mem_fetch hr).1 hq hid
  exact hread r hr (congrArg QueueEntry.uuid heq)

/-- **A drain succeeds** and brings up to date the events whose rows it has read. -/
theorem drain (h : InStep w m) (now : Instant) (limit : Nat) (latest : Option Instant)
    (anew : Bool) :
    ((Step.drain now limit latest anew).run w).1 = .ok () ∧
      InStep ((Step.drain now limit latest anew).run w).2
        ((Batch.ofRows (w.table.fetch limit latest)).applied m) := by
  obtain ⟨d, f, hrun, hstore, htracks, hkept⟩ :=
    Drain.run_ofTable h.store_eq (show (w.handler now anew).catalog.Tracks m m from h.tracks)
      (h.kept_handler now anew) limit latest
  -- a drain only reads: the table is the same before and after it
  have htable : d.table = w.table := by
    change d.store.table = w.table
    rw [hstore]
    rfl
  have hstep : (Step.drain now limit latest anew).run w =
      (.ok (), ⟨d, f, w.returned ++ [(w.table.fetch limit latest).map fun r => r.entry.id]⟩) := by
    simp only [Step.run, hrun]
  rw [hstep]
  refine ⟨rfl, ?_⟩
  refine { store_eq := ?_, recent := ?_, numbered := ?_, tracks := htracks, kept_eq := hkept,
           returned_lt := ?_, up_to_date := ?_ }
  · change d.store = .ofTable d.table
    rw [htable, hstore]
  · change d.table.isArchive = false
    rw [htable, h.recent]
  · change d.table.Numbered
    rw [htable]
    exact h.numbered
  · change ∀ ids ∈ _, ∀ i ∈ ids, i < d.table.nextId
    rw [htable]
    intro ids hids i hi
    rcases List.mem_append.1 hids with hids | hids
    · exact h.returned_lt ids hids i hi
    · rw [List.mem_singleton.1 hids] at hi
      obtain ⟨r, hr, rfl⟩ := List.mem_map.1 hi
      exact h.numbered.lt_nextId _ (EventTable.mem_fetch hr).1
  · intro u
    change _ = d.table.get? u ∨ ∃ q ∈ d.table.queue, q.uuid = u ∧ ∀ ids ∈ _, q.id ∉ ids
    rw [htable, EventTable.lookup_applied_fetch h.recent]
    by_cases hread : ∃ r ∈ w.table.fetch limit latest, r.entry.uuid = u
    · exact .inl (if_pos hread)
    · rw [if_neg hread]
      -- no row of the event was read, so an entry of it that was not returned before still is not
      refine (h.up_to_date u).imp_right ?_
      rintro ⟨q, hq, rfl, hnew⟩
      refine ⟨q, hq, rfl, fun ids hids => ?_⟩
      rcases List.mem_append.1 hids with hids | hids
      · exact hnew ids hids
      · rw [List.mem_singleton.1 hids]
        exact h.notMem_returned hq fun r hr hu => hread ⟨r, hr, hu⟩

/-- **A deletion** takes no entry that no drain has returned. -/
theorem delete (h : InStep w m) (n : Nat) :
    ((Step.delete n).run w).1 = .ok () ∧ InStep ((Step.delete n).run w).2 m := by
  simp only [Step.run, Drain.deleteEntries_ofTable h.store_eq]
  refine ⟨rfl, ?_⟩
  refine { store_eq := Drain.store_withTable h.store_eq _, recent := h.recent,
           numbered := h.numbered.deleteEntries _, tracks := h.tracks, kept_eq := h.kept_eq,
           returned_lt := h.returned_lt, up_to_date := ?_ }
  intro u
  refine (h.up_to_date u).imp_right ?_
  rintro ⟨q, hq, hu, hnew⟩
  -- the entry is not among the deleted numbers, which a drain has returned
  refine ⟨q, List.mem_filter.2 ⟨hq, ?_⟩, hu, hnew⟩
  rw [Bool.not_eq_true', List.contains_eq_mem, decide_eq_false_iff_not]
  cases hids : w.returned[n]? with
  | none => exact List.not_mem_nil
  | some ids => exact hnew ids (List.mem_of_getElem? hids)

/-- **One step** succeeds and keeps the invariant. -/
theorem run (h : InStep w m) (s : Step) :
    (s.run w).1 = .ok () ∧ ∃ m', InStep (s.run w).2 m' := by
  cases s with
  | upsert e => exact ⟨rfl, m, h.withTable (w.table.touched_upsert e)⟩
  | remove now u =>
    refine ⟨rfl, m, ?_⟩
    -- removing what is not there makes no entry, and need not
    cases hget : w.table.get? u with
    | none =>
      simp only [Step.run, EventTable.remove_of_get?_eq_none now hget]
      exact h
    | some e => exact h.withTable (EventTable.touched_remove now hget)
  | enqueue u time seen => exact ⟨rfl, m, h.withTable (w.table.touched_enqueue u time seen)⟩
  | drain now limit latest anew =>
    obtain ⟨hok, hstep⟩ := h.drain now limit latest anew
    exact ⟨hok, _, hstep⟩
  | delete n =>
    obtain ⟨hok, hstep⟩ := h.delete n
    exact ⟨hok, m, hstep⟩

/-- The induction on the run. -/
theorem runAll (h : InStep w m) (steps : List Step) : ∃ m', InStep (w.runAll steps) m' := by
  unfold Mirror.runAll
  induction steps generalizing w m with
  | nil => exact ⟨m, h⟩
  | cons s rest ih =>
    obtain ⟨-, m', hstep⟩ := h.run s
    exact ih hstep

/-- Of an event without a queued entry the catalog tells what the table holds. -/
theorem find_eq (h : InStep w m) {u : Uuid} (hu : ∀ q ∈ w.table.queue, q.uuid ≠ u) :
    w.catalog.find u = .ok (w.table.get? u) := by
  rw [h.tracks.find_eq]
  rcases h.up_to_date u with hlookup | ⟨q, hq, huuid, -⟩
  · rw [hlookup]
  -- there is no entry of the event at all, so none that was not returned
  · exact absurd huuid (hu q hq)

end InStep

/-- **The catalog is in step with the table of recent events.** Let a fresh table feed a fresh catalog, and
let changes, drains and deletions follow each other in any order. Every step succeeds, and whatever has
happened, each event of which no entry is queued is found just as the table holds it. -/
theorem find_eq_get? {name : String} {config : SearchConfig} {c : Catalog}
    (hc : Catalog.create name config = .ok c ∨
      ∃ locked, Catalog.openDirectory name config .absent locked = .ok c)
    (tableName : String) (observers : List Observer) (now : Instant) (steps : List Step) :
    let w := (fresh tableName observers c now).runAll steps
    (∀ s : Step, (s.run w).1 = .ok ()) ∧
      ∀ u, (∀ q ∈ w.table.queue, q.uuid ≠ u) → w.catalog.find u = .ok (w.table.get? u) := by
  intro w
  obtain ⟨m, hw⟩ :=
    (InStep.fresh (Catalog.tracks_of_fresh hc) tableName observers now).runAll steps
  exact ⟨fun s => (hw.run s).1, fun u hu => hw.find_eq hu⟩

/-- An event that is changed between a drain and the deletion of its row, and delivered once more after
that, is found as it is now. -/
theorem find_eq_get?_redelivered :
    let event (summary : String) : Event :=
      .raise (.ofNat 1) .epoch "host" "/Status" summary .warning
    let drain : Step := .drain .epoch 10 none true
    ∃ c, Catalog.create "events" .default = .ok c ∧
      ((fresh "event_summary" [] c .epoch).runAll [.upsert (event "down"), drain,
        .upsert (event "up"), .delete 0, drain, drain, .delete 1]).catalog.find (.ofNat 1) =
        .ok (some (event "up")) := by
  intro event drain
  have hc : Catalog.create "events" .default = .ok _ := rfl
  -- the queue is empty at the end; the table holds the later version
  refine ⟨_, hc, ?_⟩
  rw [(find_eq_get? (.inl hc) "event_summary" [] .epoch _).2]
  · decide +kernel
  · decide +kernel

end Mirror

end EventCatalog
