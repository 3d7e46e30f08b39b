import EventCatalog.Proofs.Clearing
import EventCatalog.Proofs.Forgetting

/-!
# Catalogs whose removals take effect

Clearing sets the numbers of the writer back, while the removals that it has taken up keep theirs. A removal
that no segment has looked at by then (`Catalog.Lingering`) may hold up all later ones: documents that are
written afterwards have lower numbers than it has.

Otherwise clearing does no harm, because it leaves all removals behind. If documents are staged, the last of
them is younger than every removal, so the segment that is written carries out all of them. If nothing is
staged, some segment has looked at the whole queue at the last commit, and the writer goes on behind it. In
both cases the writer is as good as new once these removals are forgotten (`Writer.Exhausted.orderly`).

So a catalog is *steady* if it has not been cleared since it was opened while removals lingered
(`Catalog.Steady`). It then has all of its removals in order, apart from some that it has behind it
(`Catalog.Rested`), and a commit leaves the documents of the outlook (`Catalog.Regular.commit`).
-/

namespace EventCatalog

namespace Writer

variable {ix ix' : Index} {w w' : Writer} {k : Nat}

/-! ### Commits with removals forgotten -/

/-- Looking at the end of the queue is seeing all of it. -/
theorem seen_foldl_look {segments : List Segment} (hne : segments ≠ [])
    (hseen : w.seen ≤ w.removals.length) (h : ∀ s ∈ segments, s.reached = w.removals.length) :
    (segments.foldl (fun w s => w.look s.reached) w).seen = w.removals.length := by
  cases segments with
  | nil => exact absurd rfl hne
  | cons s rest =>
    have hfirst : w.look s.reached = { w with seen := w.removals.length } := by
      rw [look, h s (by simp), if_pos hseen]
    obtain ⟨n, hn, heq⟩ := exists_foldl_look rest { w with seen := w.removals.length }
    rw [List.foldl_cons, hfirst, heq]
    exact hn.elim id id

/-- A commit that leaves a segment has seen all removals. -/
theorem seen_commit (h : Orderly ix w) (hne : (w.commit ix).1.segments ≠ []) :
    (w.commit ix).2.seen = (w.commit ix).2.removals.length := by
  obtain ⟨hremovals, -, -, hseen, -⟩ := flush_spec h
  have hcarried : w.carried ix ≠ [] := by
    intro hnil
    rw [segments_commit, hnil] at hne
    exact hne rfl
  -- every segment that is left is at the end of the queue
  have hlook := seen_foldl_look (w := w.committing ix) hcarried (hremovals ▸ hseen) fun s hs =>
    (reached_carried h _ s hs).trans (congrArg List.length hremovals.symm)
  rw [removals_commit h, ← hremovals]
  exact hlook

/-- What a commit leaves, with the first removals forgotten. -/
structure Advances (k : Nat) (ix : Index) (w : Writer) (ix' : Index) (w' : Writer) : Prop where
  passed : Passed k ix' w'
  follows : Follows (ix.forget k) (w.forget k) (ix'.forget k) (w'.forget k)
  seen_eq : ix'.segments ≠ [] → w'.seen = w'.removals.length

theorem advances_commit (hp : Passed k ix w) (h : Orderly (ix.forget k) (w.forget k))
    (hm : Marked (ix.forget k) (w.forget k)) : Advances k ix w (w.commit ix).1 (w.commit ix).2 := by
  obtain ⟨hix, hw, hpassed⟩ := forget_commit hp
  refine ⟨hpassed, ?_, ?_⟩
  · rw [hix, hw]
    exact follows_commit h hm
  -- what is not forgotten has been looked at, and the rest was before
  · intro hne
    have hforgotten : ((w.forget k).commit (ix.forget k)).1.segments ≠ [] := by
      rw [← hix]
      exact fun hnil => hne (List.map_eq_nil_iff.1 hnil)
    have hseen := seen_commit h hforgotten
    rw [← hw] at hseen
    change (w.commit ix).2.seen - k = ((w.commit ix).2.removals.drop k).length at hseen
    have hle := hpassed.le_seen
    have hlength := hpassed.le_length
    rw [List.length_drop] at hseen
    omega

theorem Advances.consolidate (h : Advances k ix w ix' w') (hm : Marked (ix.forget k) (w.forget k)) :
    Advances k ix w ix'.consolidate w'.tick where
  passed := { h.passed.consolidate with }
  follows := by
    rw [Index.forget_consolidate, forget_tick]
    exact h.follows.consolidate hm
  seen_eq := fun hne => h.seen_eq fun hnil => hne (Index.segments_consolidate_of_nil hnil)

/-- Nothing of what is not forgotten is left to be done. -/
theorem Advances.reached_eq (h : Advances k ix w ix' w') :
    ∀ s ∈ ix'.segments, s.reached = w'.removals.length := by
  intro s hs
  have hforgotten : s.reached - k = (w'.removals.drop k).length :=
    h.follows.settled.reached_eq (s.forget k) (List.mem_map_of_mem hs)
  have hbehind := h.passed.le_reached s hs
  have hlength := h.passed.le_length
  rw [List.length_drop] at hforgotten
  omega

/-! ### A writer that has all removals behind it -/

/-- All removals are behind every segment, and behind the one being written. -/
structure Exhausted (ix : Index) (w : Writer) : Prop where
  seen_eq : w.seen = w.removals.length
  start_eq : w.start = w.removals.length
  reached_eq : ∀ s ∈ ix.segments, s.reached = w.removals.length
  additions_eq : w.additions = []
  running : w.stalled = false

theorem Exhausted.passed (h : Exhausted ix w) : Passed w.removals.length ix w where
  le_seen := Nat.le_of_eq h.seen_eq.symm
  le_start := Nat.le_of_eq h.start_eq.symm
  le_reached := fun s hs => Nat.le_of_eq (h.reached_eq s hs).symm
  le_length := Nat.le_refl _

theorem removals_forget_length (w : Writer) : (w.forget w.removals.length).removals = [] :=
  List.drop_length

/-- A writer without removals is orderly, whatever its numbers are. -/
theorem Exhausted.orderly (h : Exhausted ix w) :
    Orderly (ix.forget w.removals.length) (w.forget w.removals.length) := by
  -- with all removals forgotten the queue is empty, and every place in it is the first
  have hforgotten : w.forget w.removals.length = { w with removals := [], seen := 0, start := 0 } := by
    rw [forget, List.drop_length, h.seen_eq, h.start_eq, Nat.sub_self]
  have hreached : ∀ s ∈ (ix.forget w.removals.length).segments, s.reached ≤ 0 := by
    intro s hs
    obtain ⟨u, hu, rfl⟩ := List.mem_map.1 hs
    exact Nat.le_of_eq (Nat.sub_eq_zero_of_le (Nat.le_of_eq (h.reached_eq u hu)))
  have hnone : ∀ a, a ∉ w.additions := by
    rw [h.additions_eq]
    exact fun _ => List.not_mem_nil
  rw [hforgotten]
  exact {
    sorted := .nil
    removal_lt := fun _ hr => absurd hr List.not_mem_nil
    addition_lt := fun a ha => absurd ha (hnone a)
    passed := fun _ hr => absurd hr List.not_mem_nil
    start_le := Nat.le_refl 0
    seen_le := Nat.le_refl 0
    reached_le := hreached
    running := h.running }

theorem Exhausted.consolidate (h : Exhausted ix w) : Exhausted ix.consolidate w.tick :=
  { h with
    reached_eq := reached_consolidate (P := fun n => n = w.removals.length) h.reached_eq }

/-- If every removal that the segment being written has to look at is older than one of its documents, it
carries out all of them. -/
theorem write_of_older (schema : Schema) (id : Nat) (hstart : w.start ≤ w.removals.length)
    (hseen : w.seen ≤ w.removals.length)
    (h : ∀ r ∈ w.removals.drop w.start, ∃ a ∈ w.additions, r.stamp < a.stamp) :
    (w.write schema id).1.reached = w.removals.length ∧
      (w.write schema id).2.seen = w.removals.length := by
  -- nothing that waits is above the greatest number of the staged documents
  have hdue : w.due w.start (w.additions.foldl (fun n a => max n a.stamp) 0) =
      w.removals.drop w.start := by
    refine List.takeWhile_eq_self_iff.2 fun r hr => decide_eq_true ?_
    obtain ⟨a, ha, hlt⟩ := h r hr
    exact Nat.le_trans (Nat.le_of_lt hlt) ((le_foldl_max w.additions 0).2 a ha)
  have hreached : (w.write schema id).1.reached = w.removals.length := by
    simp only [write, hdue, List.length_drop]
    omega
  refine ⟨hreached, ?_⟩
  change (look _ (w.write schema id).1.reached).seen = _
  rw [hreached, look, if_pos hseen]

/-- **A commit to an index without segments leaves all removals behind** if the segment that is written
carries out all of them, and if all have been looked at when none is written. -/
theorem exhausted_commit (hix : ix.segments = []) (hrun : w.stalled = false)
    (hstart : w.start ≤ w.removals.length) (hseen : w.seen ≤ w.removals.length)
    (hnone : w.additions = [] → w.seen = w.removals.length)
    (hsome : w.additions ≠ [] →
      ∀ r ∈ w.removals.drop w.start, ∃ a ∈ w.additions, r.stamp < a.stamp) :
    Exhausted (w.commit ix).1 (w.commit ix).2 := by
  obtain ⟨m, next, -, -, hflush⟩ := exists_flush_eq w ix
  obtain ⟨n, hn, heq⟩ := exists_commit_eq w ix
  have hwritten : (w.flush ix).2.seen = w.removals.length ∧
      ∀ s ∈ w.carried ix, s.reached = w.removals.length := by
    -- with nothing staged no segment is written; otherwise there is just the one
    by_cases hempty : w.additions = []
    · rw [carried_of_nil hix hempty, flush, if_pos (by rw [hempty]; rfl)]
      exact ⟨hnone hempty, fun s hs => absurd hs List.not_mem_nil⟩
    · obtain ⟨hreached, hlook⟩ :=
        write_of_older ix.schema ix.nextId hstart hseen (hsome hempty)
      rw [carried_eq_singleton hix hempty, flush_eq, if_neg (by rwa [List.isEmpty_iff])]
      refine ⟨hlook, fun s hs => ?_⟩
      -- the segment is at the end of the queue, so the commit adds nothing to it
      rw [List.mem_singleton.1 hs]
      simp only [carryOut, due, removals_committing, hreached, List.drop_length, List.takeWhile_nil,
        List.length_nil, Nat.add_zero]
  obtain ⟨hlook, hreached⟩ := hwritten
  rw [hflush] at hn heq hlook
  have hall : n = w.removals.length := hn.elim (fun h => h.trans hlook) id
  rw [heq]
  exact ⟨hall, hlook, fun s hs => hreached s (Index.mem_of_mem_arrange hs), rfl, hrun⟩

end Writer

namespace Catalog

variable {c : Catalog} {k : Nat}

/-! ### Catalogs in order -/

/-- Once the first removals are forgotten, which all segments have behind them, the writer is orderly, and
segments are marked. Readers see the segments. -/
structure Regular (k : Nat) (c : Catalog) : Prop where
  passed : Writer.Passed k c.index c.writer
  orderly : Writer.Orderly (c.index.forget k) (c.writer.forget k)
  marked : Writer.Marked (c.index.forget k) (c.writer.forget k)
  shows : c.slot.Shows c.index.segments

/-- The writer has not got beyond the end of the queue. -/
theorem Regular.start_seen_le (h : c.Regular k) :
    c.writer.start ≤ c.writer.removals.length ∧ c.writer.seen ≤ c.writer.removals.length := by
  have hstart : c.writer.start - k ≤ (c.writer.removals.drop k).length := h.orderly.start_le
  have hseen : c.writer.seen - k ≤ (c.writer.removals.drop k).length := h.orderly.seen_le
  have hlength := h.passed.le_length
  rw [List.length_drop] at hstart hseen
  omega

theorem Regular.remove (h : c.Regular k) (q : Query) :
    Regular k { c with writer := c.writer.remove q } where
  passed := h.passed.remove q
  orderly := by
    rw [Writer.forget_remove h.passed.le_length]
    exact h.orderly.remove q
  marked := by
    rw [Writer.forget_remove h.passed.le_length]
    exact h.marked.remove q
  shows := h.shows

theorem Regular.add (h : c.Regular k) (d : Document) :
    Regular k { c with writer := c.writer.add d } where
  passed := h.passed.add d
  orderly := by
    rw [Writer.forget_add h.passed.le_seen h.passed.le_start]
    exact h.orderly.add d
  marked := by
    rw [Writer.forget_add h.passed.le_seen h.passed.le_start]
    exact h.marked.add d
  shows := h.shows

/-- **A commit succeeds and leaves the documents of the outlook.** If it leaves a segment, all removals have
been looked at. -/
theorem Regular.commit (h : c.Regular k) (hcan : c.writer.canCommit c.index.schema = true)
    (now : Instant) (force : Bool) :
    (c.commit now force).1 = .ok () ∧ (c.commit now force).2.Regular k ∧
      (c.commit now force).2.slot.current.documents.Perm
        (Writer.outlook (c.index.forget k) (c.writer.forget k)) ∧
      ((c.commit now force).2.index.segments ≠ [] →
        (c.commit now force).2.writer.seen = (c.commit now force).2.writer.removals.length) := by
  have hcommit := Writer.advances_commit h.passed h.orderly h.marked
  obtain ⟨ix, w, hadvances, heq⟩ :=
    commit_written hcan now force hcommit (hcommit.consolidate h.marked)
  -- forgetting changes neither the marks of segments nor their entries
  have hentries : ∀ s ∈ c.index.segments, ∀ t ∈ ix.segments, s.fingerprint = t.fingerprint →
      s.entries = t.entries := by
    intro s hs t ht hfp
    have hforgotten := hadvances.follows.entries_eq (s.forget k) (List.mem_map_of_mem hs) (t.forget k)
    exact hforgotten (List.mem_map_of_mem ht) hfp
  have hshows : (c.slot.publish ix.segments).2.Shows ix.segments :=
    SnapshotSlot.shows_publish (h.shows.entries_eq hentries)
  have hperm := hadvances.follows.perm
  rw [Index.documents_forget, ← hshows.documents] at hperm
  rw [heq]
  exact ⟨rfl, ⟨hadvances.passed, hadvances.follows.orderly, hadvances.follows.marked, hshows⟩, hperm,
    hadvances.seen_eq⟩

/-- After a commit every segment has carried out every removal. -/
theorem Regular.reached_commit (h : c.Regular k) (hcan : c.writer.canCommit c.index.schema = true)
    (now : Instant) (force : Bool) : ∀ s ∈ (c.commit now force).2.index.segments,
      s.reached = (c.commit now force).2.writer.removals.length := by
  have hcommit := Writer.advances_commit h.passed h.orderly h.marked
  obtain ⟨ix, w, hadvances, heq⟩ :=
    commit_written hcan now force hcommit (hcommit.consolidate h.marked)
  rw [heq]
  exact hadvances.reached_eq

/-- A catalog between two changes. Documents that are staged are younger than all removals; if there are
none, but segments, all removals have been looked at. -/
structure Rested (k : Nat) (c : Catalog) : Prop where
  regular : c.Regular k
  capped : c.writer.additions ≠ [] →
    ∀ r ∈ c.writer.removals.drop k, ∃ a ∈ c.writer.additions, r.stamp < a.stamp
  watched : c.writer.additions = [] → c.index.segments ≠ [] →
    c.writer.seen = c.writer.removals.length

theorem Regular.stageRemove (h : c.Regular k) (u : Uuid) : (c.stageRemove u).Regular k := by
  unfold Catalog.stageRemove
  split
  · exact h.remove _
  · exact ⟨{ h.passed with }, h.orderly.tick, h.marked.tick, h.shows⟩

theorem Regular.stage (h : c.Regular k) (e : Event) : (c.stage e).Regular k :=
  { (h.stageRemove e.uuid).add (.ofEvent e) with }

/-- Leases do not change what readers see. -/
theorem Regular.lease (h : c.Regular k) {slot : SnapshotSlot}
    (hslot : slot.current.segments = c.slot.current.segments) : Regular k { c with slot := slot } :=
  { h with shows := h.shows.of_segments_eq hslot }

/-- A document that is staged is younger than all removals. -/
theorem Rested.stage (h : c.Rested k) (e : Event) : (c.stage e).Rested k := by
  have hr := h.regular.stageRemove e.uuid
  obtain ⟨hremovals, hadditions, -⟩ := Writer.add_spec (w := (c.stageRemove e.uuid).writer)
    hr.orderly.running (.ofEvent e)
  refine ⟨h.regular.stage e, ?_, ?_⟩
  · intro _ r hmem
    change r ∈ ((c.stageRemove e.uuid).writer.add (.ofEvent e)).removals.drop k at hmem
    rw [hremovals] at hmem
    -- the document has the next number, which is above those of all removals
    refine ⟨⟨(c.stageRemove e.uuid).writer.next, .ofEvent e⟩, ?_, hr.orderly.removal_lt r hmem⟩
    change _ ∈ ((c.stageRemove e.uuid).writer.add (.ofEvent e)).additions
    rw [hadditions]
    exact List.mem_append_right _ List.mem_cons_self
  · intro hempty
    change ((c.stageRemove e.uuid).writer.add (.ofEvent e)).additions = [] at hempty
    rw [hadditions] at hempty
    exact absurd hempty (List.append_ne_nil_of_right_ne_nil _ (List.cons_ne_nil _ _))

/-- After a commit a catalog is at rest. -/
theorem Regular.rested_commit (h : c.Regular k) (hcan : c.writer.canCommit c.index.schema = true)
    (now : Instant) (force : Bool) : (c.commit now force).2.Rested k := by
  obtain ⟨-, hregular, -, hseen⟩ := h.commit hcan now force
  exact ⟨hregular, fun hne => absurd (additions_commit c now force) hne, fun _ => hseen⟩

theorem Rested.lease (h : c.Rested k) {slot : SnapshotSlot}
    (hslot : slot.current.segments = c.slot.current.segments) : Rested k { c with slot := slot } :=
  ⟨h.regular.lease hslot, h.capped, h.watched⟩

/-- What steps keep up: catalogs of events that are at rest, and in order in the meantime. -/
theorem kept_rested : Kept (fun c => c.OfEvents ∧ ∃ k, c.Rested k)
    (fun c => c.OfEvents ∧ ∃ k, c.Regular k) where
  relax := fun ⟨hevents, k, h⟩ => ⟨hevents, k, h.regular⟩
  stage := fun e ⟨hevents, k, h⟩ => ⟨hevents.stage e, k, h.stage e⟩
  stageRemove := fun u ⟨hevents, k, h⟩ => ⟨hevents.stageRemove u, k, h.stageRemove u⟩
  remove := fun q ⟨hevents, k, h⟩ => ⟨{ hevents with }, k, h.remove q⟩
  lease := fun slot hslot ⟨hevents, k, h⟩ => ⟨kept_ofEvents.lease slot hslot hevents, k, h.lease hslot⟩
  commit := fun now force ⟨hevents, k, h⟩ =>
    ⟨hevents.commit now force, k, h.rested_commit hevents.canCommit now force⟩

/-- Without removals, segments are marked if their numbers are in order. -/
theorem Numbered.marked (h : c.Numbered) (hnone : (c.writer.forget k).removals = []) :
    Writer.Marked (c.index.forget k) (c.writer.forget k) where
  ids_nodup := by
    have hids : (c.index.forget k).segments.map Segment.id = c.index.segments.map Segment.id := by
      rw [Index.forget, List.map_map]
      rfl
    rw [hids]
    exact h.ids_nodup
  id_lt := by
    intro s hs
    obtain ⟨u, hu, rfl⟩ := List.mem_map.1 hs
    exact h.id_lt u hu
  stamp_le := by
    intro s hs n hn
    obtain ⟨u, hu, rfl⟩ := List.mem_map.1 hs
    exact (h.stamp_le u hu n hn).2
  stamp_lt := fun hne => absurd hnone hne

/-- A catalog that is opened has no removals, so none has to be forgotten. -/
theorem rested_ofIndex {name : String} {config : SearchConfig} {ix : Index} {locked : Bool}
    (hn : c.Numbered) (h : ofIndex name config ix locked = .ok c) : c.Rested 0 := by
  obtain rfl := eq_of_ofIndex h
  have hpassed : Writer.Passed 0 ix.rewound (.ofStamp ix.stamp) :=
    ⟨Nat.zero_le _, Nat.zero_le _, fun _ _ => Nat.zero_le _, Nat.zero_le _⟩
  have horderly : Writer.Orderly (ix.rewound.forget 0) (.ofStamp ix.stamp) := by
    refine Writer.orderly_ofStamp fun s hs => ?_
    obtain ⟨u, hu, rfl⟩ := List.mem_map.1 hs
    obtain ⟨_, -, rfl⟩ := Index.mem_rewound hu
    rfl
  exact ⟨⟨hpassed, horderly, hn.marked rfl, Eq.refl _⟩, fun hne => absurd rfl hne, fun _ _ => rfl⟩

/-! ### Clearing -/

/-- Nothing is stored and nothing is staged, but there are removals that no segment has looked at. -/
structure Lingering (c : Catalog) : Prop where
  bare : c.Bare
  unseen : c.writer.seen ≠ c.writer.removals.length

/-- If no removals linger, all have been looked at unless documents are staged. -/
theorem Rested.seen_eq (h : c.Rested k) (hlingering : ¬ c.Lingering)
    (hempty : c.writer.additions = []) : c.writer.seen = c.writer.removals.length := by
  by_cases hsegments : c.index.segments = []
  -- nothing is stored or staged, so this is what it takes to linger
  · have hshown : c.slot.current.segments = [] :=
      SnapshotSlot.Shows.segments_eq_nil (hsegments ▸ h.regular.shows)
    by_contra hunseen
    exact hlingering ⟨⟨hsegments, hempty, hshown⟩, hunseen⟩
  · exact h.watched hempty hsegments

/-- **Clearing leaves all removals behind**, if none linger. -/
theorem Rested.clear (h : c.Rested k) (hevents : c.OfEvents) (hnumbered : c.Numbered)
    (hlingering : ¬ c.Lingering) (now : Instant) :
    (c.clear now).2.Rested (c.clear now).2.writer.removals.length := by
  obtain ⟨hstart, hseen⟩ := h.regular.start_seen_le
  -- what the segment being written has to look at is not forgotten, so a staged document is younger
  have hwaiting : ∀ r ∈ c.writer.removals.drop c.writer.start, r ∈ c.writer.removals.drop k := by
    intro r hr
    rw [← Nat.add_sub_cancel' h.regular.passed.le_start, ← List.drop_drop] at hr
    exact List.mem_of_mem_drop hr
  have hcommit : Writer.Exhausted (c.emptied.writer.commit c.emptied.index).1
      (c.emptied.writer.commit c.emptied.index).2 :=
    Writer.exhausted_commit rfl h.regular.orderly.running hstart hseen (h.seen_eq hlingering)
      fun hstaged r hr => h.capped hstaged r (hwaiting r hr)
  obtain ⟨ix, w, hexhausted, heq⟩ := commit_written hevents.emptied.canCommit now true
    (P := Writer.Exhausted) hcommit hcommit.consolidate
  have hshows := shows_clear hevents hnumbered now
  have hnew := hnumbered.emptied.commit now true
  rw [clear_eq, heq] at hshows ⊢
  rw [heq] at hnew
  have hmarked := hnew.marked (Writer.removals_forget_length w)
  exact ⟨⟨hexhausted.passed, hexhausted.orderly, hmarked, hshows⟩,
    fun hne => absurd hexhausted.additions_eq hne, fun _ _ => hexhausted.seen_eq⟩

/-! ### Steady catalogs -/

/-- The catalogs that can be got: opened as fresh ones, and changed since. -/
inductive Reachable : Catalog → Prop where
  | fresh {c : Catalog} {name : String} {config : SearchConfig} :
      (create name config = .ok c ∨
        ∃ locked, openDirectory name config .absent locked = .ok c) → Reachable c
  | changed {c : Catalog} (change : Change) : Reachable c → Reachable (change.apply c)

/-- Since it was opened, the catalog has not been cleared while removals lingered. -/
inductive Steady : Catalog → Prop where
  | fresh {c : Catalog} {name : String} {config : SearchConfig} :
      (create name config = .ok c ∨
        ∃ locked, openDirectory name config .absent locked = .ok c) → Steady c
  | reopened {c c' : Catalog} : Reachable c →
      openDirectory c.name c.config c.close false = .ok c' → Steady c'
  | changed {c : Catalog} (change : Change) : Steady c →
      (∀ now, change = .clear now → ¬ c.Lingering) → Steady (change.apply c)

theorem Reachable.ofEvents (h : c.Reachable) : c.OfEvents := by
  induction h with
  | fresh h => exact ofEvents_of_fresh h
  | changed change _ ih => exact ih.apply change

theorem Reachable.numbered (h : c.Reachable) : c.Numbered := by
  induction h with
  | fresh h => exact numbered_of_fresh h
  | changed change _ ih => exact ih.apply change

theorem Reachable.changes (h : c.Reachable) (changes : List Change) :
    (changes.foldl Change.apply c).Reachable :=
  List.foldlRecOn changes Change.apply h fun _ hc change _ => hc.changed change

theorem Steady.reachable (h : c.Steady) : c.Reachable := by
  induction h with
  | fresh h => exact .fresh h
  | reopened h hopen =>
    -- reopening is one of the changes
    have hchanged := h.changed .reopen
    rw [Change.apply, hopen] at hchanged
    exact hchanged
  | changed change _ _ ih => exact ih.changed change

/-- A catalog that is not cleared stays steady. -/
theorem Steady.changes (h : c.Steady) {changes : List Change} (hclear : ∀ now, .clear now ∉ changes) :
    (changes.foldl Change.apply c).Steady := by
  induction changes generalizing c with
  | nil => exact h
  | cons change rest ih =>
    refine ih (h.changed change ?_) fun now hmem => hclear now (List.mem_cons_of_mem _ hmem)
    rintro now rfl
    exact absurd List.mem_cons_self (hclear now)

/-- **A steady catalog is in order**, apart from removals that it has behind it. -/
theorem Steady.rested (h : c.Steady) : ∃ k, c.Rested k := by
  induction h with
  | @fresh c name config h =>
    obtain ⟨-, locked, hix⟩ := ofIndex_of_fresh h
    exact ⟨0, rested_ofIndex (numbered_of_fresh h) hix⟩
  | @reopened c c' h hopen =>
    have hn : c'.Numbered := (Steady.reopened h hopen).reachable.numbered
    exact ⟨0, rested_ofIndex hn (ofIndex_of_openDirectory hopen).2⟩
  | @changed c change h hlingering ih =>
    obtain ⟨k, hrested⟩ := ih
    have hreachable := h.reachable
    -- most changes keep up which removals are forgotten; clearing forgets all, and reopening none
    refine (kept_rested.apply ⟨hreachable.ofEvents, k, hrested⟩ change ?_ ?_).2
    · intro now hclear
      have hcleared := hrested.clear hreachable.ofEvents hreachable.numbered (hlingering now hclear) now
      exact ⟨hreachable.ofEvents.apply (.clear now), _, hcleared⟩
    · intro c' _ hopen
      have hreopened := (Steady.reopened hreachable hopen).reachable
      have hrest := rested_ofIndex hreopened.numbered (ofIndex_of_openDirectory hopen).2
      exact ⟨hreopened.ofEvents, 0, hrest⟩

end Catalog

end EventCatalog
