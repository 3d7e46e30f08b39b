import EventCatalog.Proofs.Lifetime

/-!
# Numbers in the lifetime of a catalog

Two kinds of numbers keep a catalog together: those that segments are told apart by, and those that the
writer gives to everything it does. `Catalog.Numbered` says what holds of them at all times, also after the
numbers of the writer have been set back: staged documents have numbers above the one that the writer
started from, segments have numbers of their own that were never used before, and no segment is stamped
with a number that has not been reached yet. It holds of a fresh catalog and survives every change
(`Catalog.Numbered.apply`).

What the numbers of removals are is left open. They do not survive everything; see `Writer.Orderly`.
-/

namespace EventCatalog

namespace Writer

variable {ix : Index} {w : Writer}

/-- A stamp of a commit is an old one, or that of the commit. -/
theorem deleteStamp_commit {s : Segment} (hs : s ∈ (w.commit ix).1.segments) {n : Nat}
    (hn : s.deleteStamp = some n) :
    (∃ u ∈ ix.segments, u.deleteStamp = some n) ∨ n = (w.commit ix).1.stamp := by
  obtain ⟨u, hu, rfl⟩ := List.mem_map.1 (Index.mem_of_mem_arrange hs)
  simp only [carryOut] at hn
  split at hn
  · rcases mem_flush hu with hold | ⟨-, hnone⟩
    · exact .inl ⟨u, hold, hn⟩
    · exact absurd (hnone.symm.trans hn) (Option.some_ne_none n).symm
  -- a segment that loses documents gets the number of the commit
  · exact .inr (Option.some.inj hn).symm

end Writer

namespace Catalog

/-- The numbers of segments and of what is staged are as they should be. -/
structure Numbered (c : Catalog) : Prop where
  base_le : c.writer.base ≤ c.writer.next
  staged_gt : ∀ a ∈ c.writer.additions, c.writer.base < a.stamp
  ids_nodup : (c.index.segments.map Segment.id).Nodup
  id_lt : ∀ s ∈ c.index.segments, s.id < c.index.nextId
  stamp_le : ∀ s ∈ c.index.segments, ∀ n, s.deleteStamp = some n →
    n ≤ c.index.stamp ∧ n ≤ c.writer.next
  shown_lt : ∀ s ∈ c.slot.current.segments, s.id < c.index.nextId

variable {c : Catalog}

/-- Taking a number, for a removal or for nothing. -/
theorem Numbered.withWriter (h : c.Numbered) {w : Writer} (hbase : w.base = c.writer.base)
    (hnext : c.writer.next ≤ w.next) (hadditions : ∀ a ∈ w.additions, w.base < a.stamp) :
    Numbered { c with writer := w } where
  base_le := hbase ▸ Nat.le_trans h.base_le hnext
  staged_gt := hadditions
  ids_nodup := h.ids_nodup
  id_lt := h.id_lt
  stamp_le := fun s hs n hn =>
    ⟨(h.stamp_le s hs n hn).1, Nat.le_trans (h.stamp_le s hs n hn).2 hnext⟩
  shown_lt := h.shown_lt

theorem Numbered.stageRemove (h : c.Numbered) (u : Uuid) : (c.stageRemove u).Numbered := by
  unfold Catalog.stageRemove
  split
  · exact h.withWriter rfl (Nat.le_succ _) h.staged_gt
  · exact h.withWriter rfl (Nat.le_succ _) h.staged_gt

/-- The removal that comes with a document takes a number before it. -/
theorem Numbered.stage (h : c.Numbered) (e : Event) : (c.stage e).Numbered := by
  have hr := h.stageRemove e.uuid
  have hgt : c.writer.base < (c.stageRemove e.uuid).writer.next ∧
      (c.stageRemove e.uuid).writer.base = c.writer.base := by
    unfold Catalog.stageRemove
    split
    · exact ⟨Nat.lt_succ_of_le h.base_le, rfl⟩
    · exact ⟨Nat.lt_succ_of_le h.base_le, rfl⟩
  obtain ⟨hbase, hnext, hadditions⟩ :=
    Writer.add_numbers (c.stageRemove e.uuid).writer (.ofEvent e)
  have hstaged := hr.withWriter hbase (by omega) fun a ha => by
    rcases hadditions a ha with hold | hnew
    · exact hbase ▸ hr.staged_gt a hold
    · rw [hbase, hgt.2, hnew]
      exact hgt.1
  -- counting the staged events touches no numbers
  exact { hstaged with }

/-- What a commit writes has numbers in order. -/
private structure Written (c : Catalog) (ix : Index) (w : Writer) : Prop where
  base_eq : w.base = c.writer.base
  next_le : c.writer.next ≤ w.next
  additions_eq : w.additions = []
  ids_nodup : (ix.segments.map Segment.id).Nodup
  id_lt : ∀ s ∈ ix.segments, s.id < ix.nextId
  stamp_le : ∀ s ∈ ix.segments, ∀ n, s.deleteStamp = some n → n ≤ ix.stamp ∧ n ≤ w.next
  nextId_lt : c.index.nextId < ix.nextId

private theorem Written.merged {ix : Index} {w : Writer} (h : Written c ix w) :
    Written c ix.consolidate w.tick where
  base_eq := h.base_eq
  next_le := Nat.le_succ_of_le h.next_le
  additions_eq := h.additions_eq
  ids_nodup := (Writer.Marked.consolidate (w := w)).ids_nodup
  id_lt := (Writer.Marked.consolidate (w := w)).id_lt
  stamp_le := fun _ hs _ hn => absurd ((Writer.id_consolidate hs).2.symm.trans hn) nofun
  nextId_lt := Nat.lt_succ_of_lt h.nextId_lt

/-- **A commit keeps the numbers in order**, whether it succeeds or not. -/
theorem Numbered.commit (h : c.Numbered) (now : Instant) (force : Bool) :
    (c.commit now force).2.Numbered := by
  by_cases hcan : c.writer.canCommit c.index.schema = true
  · obtain ⟨hbase, hstamp, hnext⟩ := Writer.commit_numbers c.writer c.index
    have hflush := (Writer.flush_numbers c.writer c.index).2.1
    have hnone := Writer.additions_commit c.writer c.index
    obtain ⟨hnodup, hids⟩ := Writer.ids_commit (w := c.writer) h.ids_nodup h.id_lt
    have hstamps : ∀ s ∈ (c.writer.commit c.index).1.segments, ∀ n, s.deleteStamp = some n →
        n ≤ (c.writer.commit c.index).1.stamp ∧ n ≤ (c.writer.commit c.index).2.next := by
      intro s hs n hn
      -- numbers go up, so an old one is not above that of the commit
      have hle : n ≤ (c.writer.commit c.index).1.stamp := by
        rcases Writer.deleteStamp_commit hs hn with ⟨u, hu, hun⟩ | rfl
        · have hold := (h.stamp_le u hu n hun).2
          omega
        · exact Nat.le_refl _
      exact ⟨hle, by omega⟩
    have hwritten : Written c (c.writer.commit c.index).1 (c.writer.commit c.index).2 :=
      ⟨hbase, by omega, hnone, hnodup, hids, hstamps, Nat.lt_succ_self _⟩
    obtain ⟨ix, w, hwritten, heq⟩ := commit_written hcan now force hwritten hwritten.merged
    rw [heq]
    refine {
      base_le := hwritten.base_eq ▸ Nat.le_trans h.base_le hwritten.next_le
      staged_gt := ?_
      ids_nodup := hwritten.ids_nodup
      id_lt := hwritten.id_lt
      stamp_le := hwritten.stamp_le
      shown_lt := ?_ }
    · intro a ha
      rw [hwritten.additions_eq] at ha
      exact absurd ha List.not_mem_nil
    -- what is shown is what was shown before, or what was written
    · change ∀ s ∈ (c.slot.publish ix.segments).2.current.segments, s.id < ix.nextId
      unfold SnapshotSlot.publish
      split
      · exact fun s hs => Nat.lt_trans (h.shown_lt s hs) hwritten.nextId_lt
      · exact hwritten.id_lt
  · unfold Catalog.commit
    rw [if_neg hcan]
    exact h.withWriter rfl (Nat.le_refl _) fun a ha => absurd ha List.not_mem_nil

/-- Setting the numbers back and dropping the segments keeps the numbers in order. -/
theorem Numbered.emptied (h : c.Numbered) : c.emptied.Numbered where
  base_le := Nat.le_refl _
  staged_gt := h.staged_gt
  ids_nodup := .nil
  id_lt := fun _ hs => absurd hs List.not_mem_nil
  stamp_le := fun _ hs => absurd hs List.not_mem_nil
  shown_lt := h.shown_lt

theorem kept_numbered : Kept Numbered Numbered where
  relax := id
  stage := fun e h => h.stage e
  stageRemove := fun u h => h.stageRemove u
  remove := fun _ h => h.withWriter rfl (Nat.le_succ _) h.staged_gt
  lease := fun _ hsegments h => { h with shown_lt := hsegments ▸ h.shown_lt }
  commit := fun now force h => h.commit now force

/-- An index is opened with its numbers in order, if they are. -/
theorem numbered_ofIndex {name : String} {config : SearchConfig} {ix : Index} {locked : Bool}
    (hnodup : (ix.segments.map Segment.id).Nodup) (hid : ∀ s ∈ ix.segments, s.id < ix.nextId)
    (hstamp : ∀ s ∈ ix.segments, ∀ n, s.deleteStamp = some n → n ≤ ix.stamp)
    (h : ofIndex name config ix locked = .ok c) : c.Numbered := by
  have hids : ∀ s ∈ ix.rewound.segments, s.id < ix.nextId := by
    intro s hs
    obtain ⟨u, hu, rfl⟩ := Index.mem_rewound hs
    exact hid u hu
  obtain rfl := eq_of_ofIndex h
  exact {
    base_le := Nat.le_refl _
    staged_gt := fun _ ha => absurd ha List.not_mem_nil
    -- rewinding touches no numbers
    ids_nodup := by
      rw [Index.rewound, List.map_map]
      exact hnodup
    id_lt := hids
    stamp_le := by
      intro s hs n hn
      obtain ⟨u, hu, rfl⟩ := Index.mem_rewound hs
      have hle := hstamp u hu n hn
      exact ⟨hle, hle⟩
    shown_lt := hids }

theorem numbered_of_fresh {name : String} {config : SearchConfig}
    (h : create name config = .ok c ∨ ∃ locked, openDirectory name config .absent locked = .ok c) :
    c.Numbered := by
  obtain ⟨-, locked, hix⟩ := ofIndex_of_fresh h
  refine numbered_ofIndex ?_ ?_ ?_ hix
  · exact .nil
  · exact fun _ hs => absurd hs List.not_mem_nil
  · exact fun _ hs => absurd hs List.not_mem_nil

/-- **One change** keeps the numbers in order. -/
theorem Numbered.apply (h : c.Numbered) (change : Change) : (change.apply c).Numbered := by
  refine kept_numbered.apply h change ?_ ?_
  · rintro now rfl
    exact h.emptied.commit now true
  · intro c' _ hopen
    exact numbered_ofIndex h.ids_nodup h.id_lt (fun s hs n hn => (h.stamp_le s hs n hn).1)
      (ofIndex_of_openDirectory hopen).2

/-- **In the lifetime of a catalog** its numbers stay in order. -/
theorem Numbered.changes (h : c.Numbered) (changes : List Change) :
    (changes.foldl Change.apply c).Numbered :=
  List.foldlRecOn changes Change.apply h fun _ hc change _ => hc.apply change

end Catalog

end EventCatalog
