import Mathlib.Algebra.GroupWithZero.Nat
import EventCatalog.Proofs.CurrentView
import EventCatalog.Proofs.Plans
import EventCatalog.Proofs.Steadiness

/-!
# When segments are merged

A catalog counts the events that are staged, and merges its segments when a commit finds that there are
enough of them, or when that is asked for. The counter starts again with every merge
(`Change.sinceOptimize_apply`), so it tells how many events have been staged since the last one, and after a
commit it is below the threshold.

That keeps the number of segments small. A commit writes a segment only if a document has been staged, and
each staged document has been counted, so there is at most one segment more than the counter says
(`Catalog.Sparse`). When the segments have been merged, there is at most one, without documents that are struck
out.

Merging twice should then be of no use. It is not if the removals have been carried out by the first time
(`Catalog.Still`), as they are in a steady catalog (`Catalog.Steady.still`).
-/

namespace EventCatalog

namespace Index

/-- What has been merged is one segment at most, of documents that all count. -/
theorem isScattered_consolidate (ix : Index) : ix.consolidate.isScattered = false := by
  have hlive : (ix.documents.map fun d => Entry.mk d true).any (fun e => !e.live) = false := by
    rw [List.any_map, List.any_eq_false]
    exact fun _ _ => Bool.false_ne_true
  unfold consolidate isScattered
  dsimp only
  split
  · rfl
  · simp only [List.any_cons, List.any_nil, Bool.or_false, Segment.hasDeletes, hlive]
    rfl

/-- If merging would change nothing, there is one segment at most, without documents struck out. -/
theorem isScattered_eq_false {ix : Index} :
    ix.isScattered = false ↔ ix.segments.length ≤ 1 ∧ ∀ s ∈ ix.segments, s.hasDeletes = false := by
  rw [isScattered, Bool.or_eq_false_iff, decide_eq_false_iff_not, List.any_eq_false, not_le,
    Nat.lt_succ_iff]
  simp

end Index

namespace Writer

variable {ix : Index} {w : Writer}

/-- A commit writes a segment if documents are staged, and drops others. -/
theorem length_segments_commit (w : Writer) (ix : Index) :
    (w.commit ix).1.segments.length ≤ ix.segments.length + if w.additions = [] then 0 else 1 := by
  have harrange : (w.commit ix).1.segments.length ≤ (w.flush ix).1.length := by
    rw [segments_commit, (Index.arrange_perm _ _).length_eq]
    refine (List.length_filter_le _ _).trans (Nat.le_of_eq ?_)
    rw [carried, List.length_map]
  refine harrange.trans (Nat.le_of_eq ?_)
  -- what is staged is written into one segment, however much it is
  rw [flush_eq]
  cases w.additions with
  | nil => rfl
  | cons a rest => simp

end Writer

namespace Catalog

variable {c : Catalog}

/-! ### Merging or not -/

theorem isScattered_consolidate (ix : Index) (w : Writer) : (consolidate ix w).1.isScattered = false := by
  unfold consolidate
  split
  · exact ix.isScattered_consolidate
  · next h => exact Bool.eq_false_iff.2 h

/-- **What a commit leaves** in the index: what has been written, merged if that is asked for or due. -/
theorem index_commit (hcan : c.writer.canCommit c.index.schema = true) (now : Occasion) (force : Bool) :
    (c.commit now force).2.index =
        (if force || c.config.optimizeThreshold ≤ c.sinceOptimize then
          consolidate (c.writer.commit c.index now.deal).1 (c.writer.commit c.index now.deal).2
        else c.writer.commit c.index now.deal).1 ∧
      (c.commit now force).2.sinceOptimize =
        (if force || c.config.optimizeThreshold ≤ c.sinceOptimize then 0 else c.sinceOptimize) ∧
      (c.commit now force).2.slot = (c.slot.publish (c.commit now force).2.index.segments).2 := by
  unfold commit
  rw [if_pos hcan]
  exact ⟨rfl, rfl, rfl⟩

theorem config_commit (c : Catalog) (now : Occasion) (force : Bool) : (c.commit now force).2.config = c.config := by
  unfold commit
  split <;> rfl

/-! ### The counter -/

theorem sinceOptimize_stageRemove (c : Catalog) (u : Uuid) :
    (c.stageRemove u).sinceOptimize = c.sinceOptimize := by
  unfold stageRemove
  split <;> rfl

theorem sinceOptimize_stage (c : Catalog) (e : Event) :
    (c.stage e).sinceOptimize = c.sinceOptimize + 1 :=
  congrArg (· + 1) (sinceOptimize_stageRemove c e.uuid)

theorem sinceOptimize_stageAll (c : Catalog) (events : List Event) :
    (c.stageAll events).sinceOptimize = c.sinceOptimize + events.length := by
  unfold stageAll
  induction events generalizing c with
  | nil => rfl
  | cons e rest ih =>
    rw [List.foldl_cons, ih, sinceOptimize_stage, List.length_cons]
    omega

end Catalog

namespace Change

variable {c : Catalog} {change : Change}

end Change

/-! ### The number of segments -/

namespace Catalog

variable {c : Catalog}

/-- There is at most one segment more than the counter says, with the one that would be written counted. -/
def Sparse (c : Catalog) : Prop :=
  c.index.segments.length + (if c.writer.additions = [] then 0 else 1) ≤ c.sinceOptimize + 1

theorem Sparse.stageRemove (h : c.Sparse) (u : Uuid) : (c.stageRemove u).Sparse := by
  unfold Catalog.stageRemove
  split
  · exact h
  · exact h

theorem Sparse.stage (h : c.Sparse) (e : Event) : (c.stage e).Sparse := by
  -- the segment that is going to be written is made up for by the counter
  have hindex : (c.stage e).index = c.index := by
    unfold Catalog.stage Catalog.stageRemove
    split <;> rfl
  have hle : c.index.segments.length ≤ c.sinceOptimize + 1 := Nat.le_of_add_right_le h
  unfold Sparse
  rw [hindex, sinceOptimize_stage]
  split <;> omega

theorem Sparse.commit (h : c.Sparse) (now : Instant) (force : Bool) : (c.commit now force).2.Sparse := by
  by_cases hcan : c.writer.canCommit c.index.schema = true
  · obtain ⟨hindex, hsince, -⟩ := index_commit hcan now force
    dsimp only at hindex
    have hwritten := Writer.length_segments_commit c.writer c.index
    have hmerged := Index.isScattered_eq_false.1
      (isScattered_consolidate (c.writer.commit c.index).1 (c.writer.commit c.index).2)
    unfold Sparse at h ⊢
    rw [additions_commit, if_pos rfl, hindex, hsince]
    split
    -- merging leaves one segment when the counter starts again
    · exact hmerged.1
    · omega
  -- a commit that fails writes nothing, and drops what was staged
  · unfold Catalog.commit
    rw [if_neg hcan]
    unfold Sparse at h ⊢
    simp only [Writer.stall, if_true]
    omega

theorem kept_sparse : Kept Sparse Sparse where
  relax := id
  stage := fun e h => h.stage e
  stageRemove := fun u h => h.stageRemove u
  remove := fun _ h => h
  lease := fun _ _ h => h
  commit := fun now force h => h.commit now force

/-- **One change** leaves at most one segment more than the counter says, if it does not set the counter back
without merging. -/
theorem Sparse.apply (h : c.Sparse) {change : Change} (hopen : change ≠ .reopen) :
    (change.apply c).Sparse := by
  refine kept_sparse.apply h change ?_ fun _ hreopen => absurd hreopen hopen
  intro now _
  -- clearing leaves the counter, but no segments
  have hemptied : c.emptied.Sparse := by
    unfold Sparse
    change 0 + (if c.writer.additions = [] then 0 else 1) ≤ c.sinceOptimize + 1
    split <;> omega
  exact hemptied.commit now true

theorem Sparse.changes (h : c.Sparse) {changes : List Change} (hopen : Change.reopen ∉ changes) :
    (changes.foldl Change.apply c).Sparse := by
  refine List.foldlRecOn changes Change.apply h fun c' hc change hmem => hc.apply ?_
  exact fun hreopen => hopen (hreopen ▸ hmem)

/-- A catalog that a commit leaves as it is: nothing is staged, every segment has carried out every removal,
and merging would change nothing. -/
structure Still (c : Catalog) : Prop where
  current : c.Current
  additions_eq : c.writer.additions = []
  reached_eq : ∀ s ∈ c.index.segments, s.reached = c.writer.removals.length
  merged : c.index.isScattered = false
  live_ne : ∀ s ∈ c.index.segments, s.live ≠ []

end Catalog

/-- A segment that has carried out all removals stays as it is. -/
theorem Writer.carryOut_of_reached {w : Writer} {schema : Schema} {commit : Nat} {s : Segment}
    (hreached : s.reached = w.removals.length) (hdeletes : s.hasDeletes = false) :
    w.carryOut schema commit s = s := by
  have hdue : w.due s.reached commit = [] := by
    rw [due, hreached, List.drop_length, List.takeWhile_nil]
  have hentries : Segment.strike (fun _ => false) s.entries = s.entries := by
    rw [Segment.strike]
    simp
  have hnone : (s.entries.countP fun e => !e.live) = 0 := by
    rw [List.countP_eq_zero]
    exact fun e he => List.any_eq_false.1 hdeletes e he
  unfold carryOut
  simp only [hdue, List.any_nil, hentries, hnone, decide_true, Bool.true_or, if_true,
    List.length_nil, Nat.add_zero]

theorem Index.arrange_eq_self {segments : List Segment} (newestFirst : Bool)
    (hlength : segments.length ≤ 1) (hlive : ∀ s ∈ segments, s.live ≠ []) :
    arrange newestFirst segments = segments := by
  have hkept : (segments.filter fun s => !s.live.isEmpty) = segments := by
    refine List.filter_eq_self.2 fun s hs => ?_
    simpa using hlive s hs
  rw [arrange, hkept]
  cases segments with
  | nil => rfl
  | cons s rest =>
    obtain rfl : rest = [] := List.length_eq_zero_iff.1 (Nat.le_zero.1 (Nat.le_of_succ_le_succ hlength))
    rfl

namespace Catalog

variable {c : Catalog}

/-- **A commit of a still catalog** leaves the segments. -/
theorem Still.segments_commit (h : c.Still) (now : Instant) (force : Bool) :
    (c.commit now force).2.index.segments = c.index.segments := by
  obtain ⟨hlength, hdeletes⟩ := Index.isScattered_eq_false.1 h.merged
  -- nothing is written, nothing is carried out, nothing is arranged, and nothing is merged
  have hflush : c.writer.flush c.index = (c.index.segments, c.writer) := by
    rw [Writer.flush, if_pos (by rw [h.additions_eq]; rfl)]
  have hcarried : c.writer.carried c.index = c.index.segments := by
    rw [Writer.carried, hflush]
    refine (List.map_congr_left fun s hs => ?_).trans (List.map_id _)
    refine Writer.carryOut_of_reached ?_ (hdeletes s hs)
    rw [Writer.removals_committing]
    exact h.reached_eq s hs
  have hwritten : (c.writer.commit c.index).1.segments = c.index.segments := by
    rw [Writer.segments_commit, hcarried]
    exact Index.arrange_eq_self _ hlength h.live_ne
  have hmerged : (c.writer.commit c.index).1.isScattered = false := by
    rw [Index.isScattered_eq_false, hwritten]
    exact ⟨hlength, hdeletes⟩
  rw [(index_commit h.current.events.canCommit now force).1, consolidate, hmerged]
  split
  · exact hwritten
  · exact hwritten

/-- **A commit of a still catalog** publishes nothing, and readers are told the same as before. -/
theorem Still.commit (h : c.Still) (now : Instant) (force : Bool) :
    (c.commit now force).1 = .ok () ∧ (c.commit now force).2.slot = c.slot ∧
      (c.commit now force).2.SameAnswers c := by
  have hslot : (c.commit now force).2.slot = c.slot := by
    rw [(index_commit h.current.events.canCommit now force).2.2, h.segments_commit,
      SnapshotSlot.publish, if_pos h.current.shows.fingerprint_eq]
  refine ⟨h.current.events.commit_ok now force, hslot, sameAnswers_of_live ?_ ?_ (by rw [hslot])⟩
  · exact (h.current.events.commit now force).schema_eq.trans h.current.events.schema_eq.symm
  · exact ((kept_settings c.name c.config).commit now force ⟨rfl, rfl⟩).2

theorem Reachable.current (h : c.Reachable) : c.Current := by
  induction h with
  | fresh h => exact current_of_fresh h
  | changed change _ ih => exact ih.apply change

/-- When a steady catalog has been cleared, no removal is left to be carried out. -/
theorem Steady.reached_clear (h : c.Steady) (now : Instant) : ∀ s ∈ (c.clear now).2.index.segments,
    s.reached = (c.clear now).2.writer.removals.length := by
  have hevents := h.reachable.ofEvents
  have hnumbered := h.reachable.numbered
  by_cases hlingering : c.Lingering
  -- there was nothing, so there is nothing
  · intro s hs
    rw [(bare_clear hevents hnumbered now hlingering.bare.additions_eq).segments_eq] at hs
    exact absurd hs List.not_mem_nil
  · obtain ⟨k, hrested⟩ := h.rested
    have hregular := (hrested.clear hevents hnumbered hlingering now).regular
    -- all removals are forgotten, and every segment has got at least that far
    intro s hs
    have hbehind := hregular.passed.le_reached s hs
    have hreached : s.reached - _ ≤ ((c.clear now).2.writer.removals.drop _).length :=
      hregular.orderly.reached_le (s.forget _) (List.mem_map_of_mem hs)
    rw [List.drop_length, List.length_nil] at hreached
    omega

end Catalog

namespace Change

variable {c : Catalog} {change : Change}

end Change

namespace Catalog

end Catalog

end EventCatalog
