import EventCatalog.Proofs.Tables
import EventCatalog.Queue.Indexer

/-!
# The account of the batches of an archive

Which entries a batch reads depends on the changes of the table and on the limit of a batch, not on the
catalog. A `Ledger` keeps that account: the table, and the entries that each batch has read.
`Ledger.deciding` is the first entry of an event in the newest batch that has one, and so the entry that has
decided what the catalog holds of the event.

The newest entry of every event records when it was last seen (`Ledger.Recorded`), for every change of the
event makes an entry. It need not be the one that decides, as an older entry of the same batch comes before
it. But if no batch has read two entries of one event that recorded different times (`Ledger.Agrees`), the
entry that decides has recorded the same as the newest one (`Ledger.Agrees.exists_deciding`).
-/

namespace EventCatalog

/-- Something that happens to a table, or a cycle of its indexer. -/
inductive Indexer.Step where
  | upsert (e : Event)
  | remove (now : Instant) (u : Uuid)
  | cycle (clock : Clock)

/-- A table, and the entries that each batch has read, the first batch first. -/
structure Ledger where
  table : EventTable
  batches : List (List QueueEntry)

namespace Ledger

/-- An archive without events. -/
def fresh (name : String) : Ledger := ⟨.empty name true, []⟩

/-- A cycle reads the first entries, and then deletes them. -/
def cycle (limit : Nat) (l : Ledger) : Ledger where
  table := { l.table with queue := l.table.queue.drop limit }
  batches := l.batches ++ [l.table.queue.take limit]

/-- The account after a step. -/
def after (limit : Nat) (l : Ledger) : Indexer.Step → Ledger
  | .upsert e => { l with table := (l.table.upsert e).2 }
  | .remove now u => { l with table := (l.table.remove now u).2 }
  | .cycle _ => l.cycle limit

/-- The account after so many cycles that the last of them reads less than a full batch. -/
def fully (limit : Nat) (l : Ledger) : Ledger :=
  (cycle limit)^[l.table.pending / limit + 1] l

/-- The entry that decides what becomes of an event: the first in the newest batch that has one. -/
def deciding (l : Ledger) (u : Uuid) : Option QueueEntry :=
  l.batches.reverse.findSome? fun b => b.find? fun q => q.uuid == u

variable {l : Ledger} {limit : Nat} {u : Uuid}

/-! ### Cycles -/

theorem pending_cycle (limit : Nat) (l : Ledger) :
    (l.cycle limit).table.pending = l.table.pending - limit := List.length_drop

/-- What a cycle keeps up is kept up by all of them. -/
theorem fully_induction {P : Ledger → Prop} (hcycle : ∀ l : Ledger, P l → P (l.cycle limit))
    (h : P l) : P (l.fully limit) :=
  Function.Iterate.rec P h hcycle _

/-- A batch without entries of an event leaves the decision about it, and another makes a new one. -/
theorem deciding_cycle (limit : Nat) (l : Ledger) (u : Uuid) :
    (l.cycle limit).deciding u =
      ((l.table.queue.take limit).find? fun q => q.uuid == u).or (l.deciding u) := by
  unfold deciding cycle
  rw [List.reverse_append, List.reverse_singleton, List.singleton_append, List.findSome?_cons]
  -- the newest batch is asked first, as it stands at the end
  cases (l.table.queue.take limit).find? fun q => q.uuid == u with
  | none => rfl
  | some q => rfl

theorem uuid_of_deciding {q : QueueEntry} (h : l.deciding u = some q) : q.uuid = u := by
  obtain ⟨b, -, hfind⟩ := List.exists_of_findSome?_eq_some h
  have huuid := List.find?_some hfind
  exact beq_iff_eq.1 huuid

/-- A full batch is followed by as many cycles as the rest of the queue takes. -/
theorem fully_of_le (hlimit : 1 ≤ limit) (h : limit ≤ l.table.pending) :
    l.fully limit = (l.cycle limit).fully limit := by
  have hcycles : l.table.pending / limit = (l.table.pending - limit) / limit + 1 :=
    Nat.div_eq_sub_div hlimit h
  unfold fully
  rw [pending_cycle, hcycles, Function.iterate_succ_apply]

/-- What is less than a full batch takes one cycle. -/
theorem fully_of_lt (h : l.table.pending < limit) : l.fully limit = l.cycle limit := by
  unfold fully
  rw [Nat.div_eq_of_lt h, Function.iterate_one]

/-- After so many cycles the queue is empty. -/
theorem queue_fully (hlimit : 1 ≤ limit) (l : Ledger) : (l.fully limit).table.queue = [] := by
  induction hn : l.table.pending using Nat.strong_induction_on generalizing l with
  | _ n ih =>
    -- a full batch takes at least one entry, so fewer are left for the cycles after it
    by_cases hfull : limit ≤ l.table.pending
    · rw [fully_of_le hlimit hfull]
      apply ih _ _ _ rfl
      rw [pending_cycle]
      omega
    · rw [fully_of_lt (Nat.lt_of_not_le hfull)]
      exact List.drop_eq_nil_of_le (Nat.le_of_not_le hfull)

/-! ### Batches that agree -/

/-- All entries that were made, the oldest first. -/
def made (l : Ledger) : List QueueEntry := l.batches.flatten ++ l.table.queue

/-- The newest entry of every event of the archive has recorded when the event was last seen. -/
structure Recorded (l : Ledger) : Prop where
  isArchive : l.table.isArchive = true
  newest_seen : ∀ u e, l.table.get? u = some e →
    ∃ q, (l.made.reverse.find? fun q => q.uuid == u) = some q ∧ q.lastSeen = some e.lastSeen

/-- No batch has read two entries of one event that recorded different times. -/
def Agrees (l : Ledger) : Prop :=
  ∀ b ∈ l.batches, ∀ q ∈ b, ∀ q' ∈ b, q.uuid = q'.uuid → q.lastSeen = q'.lastSeen

theorem recorded_fresh (name : String) : (fresh name).Recorded where
  isArchive := rfl
  newest_seen := fun _ _ h => nomatch h

/-- A change that records the time at which its event was last seen. -/
theorem Recorded.touched (h : l.Recorded) {t : EventTable} {v : Uuid} {entry : QueueEntry}
    (ht : l.table.Touched v entry t)
    (hseen : ∀ e, t.get? v = some e → entry.lastSeen = some e.lastSeen) :
    Recorded { l with table := t } where
  isArchive := ht.isArchive_eq.trans h.isArchive
  newest_seen := by
    intro u e he
    change t.get? u = some e at he
    have hmade : made { l with table := t } = l.made ++ [entry] := by
      unfold made
      rw [ht.queue_eq, List.append_assoc]
    rw [hmade, List.reverse_append, List.reverse_singleton, List.singleton_append, List.find?_cons]
    -- the entry of the change is the newest of its event, and of no other
    by_cases hv : u = v
    · have heq : (entry.uuid == u) = true := by rw [ht.uuid_eq, hv, beq_self_eq_true]
      rw [heq]
      exact ⟨entry, rfl, hseen e (hv ▸ he)⟩
    · have hne : (entry.uuid == u) = false := by
        rw [ht.uuid_eq]
        exact beq_eq_false_iff_ne.2 (Ne.symm hv)
      rw [hne]
      rw [ht.get?_eq u hv] at he
      exact h.newest_seen u e he

/-- A cycle makes no entries. -/
theorem Recorded.cycle (h : l.Recorded) (limit : Nat) : (l.cycle limit).Recorded where
  isArchive := h.isArchive
  newest_seen := by
    have hmade : (l.cycle limit).made = l.made := by
      unfold made Ledger.cycle
      dsimp only
      rw [List.flatten_append, List.flatten_singleton, List.append_assoc, List.take_append_drop]
    rw [hmade]
    exact h.newest_seen

theorem Recorded.after (h : l.Recorded) (limit : Nat) (s : Indexer.Step) :
    (l.after limit s).Recorded := by
  have hsight : ∀ e : Event, l.table.recordedSight e = some e.lastSeen := by
    intro e
    rw [EventTable.recordedSight, h.isArchive, if_pos rfl]
  cases s with
  | upsert e =>
    apply h.touched (l.table.touched_upsert e)
    intro f hf
    rw [EventTable.get?_upsert, if_pos rfl] at hf
    rw [← Option.some.inj hf]
    exact hsight e
  | remove now u =>
    cases hget : l.table.get? u with
    | none =>
      rw [Ledger.after, EventTable.remove_of_get?_eq_none now hget]
      exact h
    | some e =>
      apply h.touched (EventTable.touched_remove now hget)
      intro f hf
      rw [EventTable.get?_remove, if_pos rfl] at hf
      exact nomatch hf
  | cycle clock => exact h.cycle limit

theorem Recorded.foldl_after (h : l.Recorded) (limit : Nat) (steps : List Indexer.Step) :
    (steps.foldl (Ledger.after limit) l).Recorded := by
  induction steps generalizing l with
  | nil => exact h
  | cons s rest ih => exact ih (h.after limit s)

theorem Recorded.fully (h : l.Recorded) (limit : Nat) : (l.fully limit).Recorded :=
  fully_induction (fun _ h => h.cycle limit) h

/-- Where batches agree, the entry that decides has recorded the same time as the newest one. The
induction takes off the newest batch, which either has an entry of the event, so that both entries are in
it, or has none. -/
theorem Agrees.exists_deciding (h : l.Agrees) {q : QueueEntry}
    (hq : (l.batches.flatten.reverse.find? fun q => q.uuid == u) = some q) :
    ∃ q', l.deciding u = some q' ∧ q'.lastSeen = q.lastSeen := by
  unfold Agrees at h
  unfold deciding
  generalize l.batches = batches at h hq
  induction batches using List.reverseRecOn with
  | nil => exact nomatch hq
  | append_singleton older b ih =>
    rw [List.flatten_append, List.flatten_singleton, List.reverse_append, List.find?_append] at hq
    rw [List.reverse_append, List.reverse_singleton, List.singleton_append, List.findSome?_cons]
    have hb : b ∈ older ++ [b] := List.mem_append_right _ List.mem_cons_self
    -- does the newest batch have an entry of the event?
    cases hfirst : b.find? fun q => q.uuid == u with
    | some q' =>
      refine ⟨q', rfl, ?_⟩
      have hq'u := List.find?_some hfirst
      -- it has one from the front, so it has one from the back
      cases hlast : b.reverse.find? fun q => q.uuid == u with
      | none =>
        have hmem := List.mem_reverse.2 (List.mem_of_find?_eq_some hfirst)
        exact absurd hq'u (List.find?_eq_none.1 hlast q' hmem)
      | some q'' =>
        rw [hlast, Option.some_or] at hq
        obtain rfl := Option.some.inj hq
        have hq''u := List.find?_some hlast
        have hmem := List.mem_reverse.1 (List.mem_of_find?_eq_some hlast)
        apply h b hb q' (List.mem_of_find?_eq_some hfirst) q'' hmem
        exact (beq_iff_eq.1 hq'u).trans (beq_iff_eq.1 hq''u).symm
    | none =>
      -- it has none from the front, so none from the back, and the older batches decide
      have hlast : (b.reverse.find? fun q => q.uuid == u) = none := by
        rw [List.find?_eq_none]
        intro q' hq'
        exact List.find?_eq_none.1 hfirst q' (List.mem_reverse.1 hq')
      rw [hlast, Option.none_or] at hq
      exact ih (fun c hc => h c (List.mem_append_left _ hc)) hq

end Ledger

end EventCatalog
