import EventCatalog.Proofs.Numbering
import EventCatalog.Proofs.Visibility

/-!
# Clearing

Clearing drops what has been committed, and then commits. So it is an event that has only been staged
which outlives it: all that readers see afterwards had been staged, and they see something exactly if anything
had been (`Catalog.clear_iff_unstaged`). That holds in every state that a catalog can get into.

That something is left is a matter of numbers. Clearing sets the numbers of the writer back, so the commit
that ends it has a low number. The staged document with the highest number is struck out neither when the
segment is written, since no removal that is carried out then is younger, nor by the commit, because the
first removal that waits has a number above that document's, and with it above the commit's.
-/

namespace EventCatalog

namespace Writer

variable {ix : Index} {w : Writer} {schema : Schema}

/-! ### The youngest of the staged documents -/

/-- The greatest number is that of a document, if it is not where the search began. -/
theorem foldl_max_eq (as : List Addition) (n : Nat) :
    as.foldl (fun n a => max n a.stamp) n = n ∨
      ∃ a ∈ as, a.stamp = as.foldl (fun n a => max n a.stamp) n := by
  induction as generalizing n with
  | nil => exact .inl rfl
  | cons a rest ih =>
    rw [List.foldl_cons]
    rcases ih (max n a.stamp) with hkept | ⟨a', ha', heq⟩
    -- what is kept from here on is the greater of the two
    · rcases Nat.le_total n a.stamp with hle | hle
      · exact .inr ⟨a, by simp, by rw [hkept, Nat.max_eq_right hle]⟩
      · exact .inl (by rw [hkept, Nat.max_eq_left hle])
    · exact .inr ⟨a', List.mem_cons_of_mem _ ha', heq⟩

/-- There is a youngest among the staged documents. -/
theorem exists_youngest {a : Addition} (ha : a ∈ w.additions) :
    ∃ b ∈ w.additions, b.stamp = w.additions.foldl (fun n a => max n a.stamp) 0 := by
  have hle := (le_foldl_max w.additions 0).2 a ha
  rcases foldl_max_eq w.additions 0 with hzero | hfound
  -- if the greatest number is zero, all of them are
  · exact ⟨a, ha, by omega⟩
  · exact hfound

theorem stamp_le_of_mem_due {place limit : Nat} {r : Removal} (h : r ∈ w.due place limit) :
    r.stamp ≤ limit := by
  have hdue := List.mem_takeWhile_imp (p := fun r : Removal => r.stamp ≤ limit) h
  exact of_decide_eq_true hdue

/-- The youngest document of a segment that is written counts. -/
theorem mem_live_write_youngest {b : Addition} (hb : b ∈ w.additions)
    (hlimit : b.stamp = w.additions.foldl (fun n a => max n a.stamp) 0) (id : Nat) :
    b.document ∈ (w.write schema id).1.live := by
  -- no removal that is carried out in writing is younger than the document
  have hlive : (strikeEarlier schema
      (w.due w.start (w.additions.foldl (fun n a => max n a.stamp) 0)) b).live = true := by
    refine live_strikeEarlier_of_earlier fun r hr => ?_
    rw [hlimit]
    exact stamp_le_of_mem_due hr
  simp only [write, Segment.live, List.filterMap_map, List.mem_filterMap]
  refine ⟨b, hb, ?_⟩
  simp only [Function.comp, hlive, if_true]
  rfl

/-- Behind the removals that are due by a number, none is due by a lower one. -/
theorem due_behind {place limit lower : Nat} (h : lower ≤ limit) :
    w.due (place + (w.due place limit).length) lower = [] := by
  unfold due
  rw [← List.drop_drop]
  generalize w.removals.drop place = rs
  induction rs with
  | nil => rfl
  | cons r rest ih =>
    by_cases hr : r.stamp ≤ limit
    · rw [List.takeWhile_cons_of_pos (p := fun r : Removal => r.stamp ≤ limit) (decide_eq_true hr),
        List.length_cons, List.drop_succ_cons]
      exact ih
    -- the first one that waits is above the limit
    · have hlower : ¬ r.stamp ≤ lower := fun hle => hr (Nat.le_trans hle h)
      rw [List.takeWhile_cons_of_neg (p := fun r : Removal => r.stamp ≤ limit) (by simpa using hr),
        List.length_nil, List.drop_zero,
        List.takeWhile_cons_of_neg (p := fun r : Removal => r.stamp ≤ lower) (by simpa using hlower)]

/-- What is written has been staged. -/
theorem mem_live_write {id : Nat} {d : Document} (h : d ∈ (w.write schema id).1.live) :
    ∃ a ∈ w.additions, a.document = d := by
  simp only [write, Segment.live, List.filterMap_map, List.mem_filterMap] at h
  obtain ⟨a, ha, hd⟩ := h
  refine ⟨a, ha, ?_⟩
  simp only [Function.comp] at hd
  split at hd
  · exact Option.some.inj hd
  · exact absurd hd.symm (Option.some_ne_none d)

/-- Without segments and without anything staged, there is nothing to carry removals out on. -/
theorem carried_of_nil (hix : ix.segments = []) (hw : w.additions = []) : w.carried ix = [] := by
  rw [carried, flush, if_pos (by rw [hw]; rfl), hix, List.map_nil]

/-- Without segments, the removals are carried out on the one that is written. -/
theorem carried_eq_singleton (hix : ix.segments = []) (hw : w.additions ≠ []) :
    w.carried ix = [(w.committing ix).carryOut ix.schema (w.commit ix).1.stamp
      (w.write ix.schema ix.nextId).1] := by
  have hflush : (w.flush ix).1 = [(w.write ix.schema ix.nextId).1] := by
    rw [flush_eq, if_neg (by rwa [List.isEmpty_iff]), hix]
    rfl
  rw [carried, hflush]
  rfl

/-- **A commit to an index without segments** leaves only what has been staged. If its number is not above
all of those of the staged documents, it leaves one of them. -/
theorem documents_commit_of_nil (hix : ix.segments = []) :
    (∀ d ∈ (w.commit ix).1.documents, ∃ a ∈ w.additions, a.document = d) ∧
      (∀ a ∈ w.additions, (w.commit ix).1.stamp ≤ a.stamp → (w.commit ix).1.documents ≠ []) := by
  have hperm : (w.commit ix).1.documents.Perm ((w.carried ix).flatMap Segment.live) := by
    rw [Index.documents, segments_commit]
    exact Index.live_arrange_perm _ _
  by_cases hnone : w.additions = []
  -- nothing is written
  · rw [carried_of_nil hix hnone, List.flatMap_nil] at hperm
    constructor
    · intro d hd
      rw [hperm.eq_nil] at hd
      exact absurd hd List.not_mem_nil
    · intro a ha
      rw [hnone] at ha
      exact absurd ha List.not_mem_nil
  -- one segment is written, on which the removals are carried out
  · rw [carried_eq_singleton hix hnone, List.flatMap_singleton, live_carryOut] at hperm
    constructor
    · intro d hd
      exact mem_live_write (List.mem_of_mem_filter (hperm.mem_iff.1 hd))
    · intro a ha hstamp
      obtain ⟨b, hb, hlimit⟩ := exists_youngest ha
      have hle : (w.commit ix).1.stamp ≤ w.additions.foldl (fun n a => max n a.stamp) 0 :=
        Nat.le_trans hstamp ((le_foldl_max w.additions 0).2 a ha)
      -- what waits for the segment is not due yet
      have hdue : (w.committing ix).due (w.write ix.schema ix.nextId).1.reached
          (w.commit ix).1.stamp = [] := by
        unfold due
        rw [removals_committing]
        exact due_behind hle
      have hmem : b.document ∈ (w.commit ix).1.documents := by
        rw [hperm.mem_iff, hdue]
        exact List.mem_filter.2 ⟨mem_live_write_youngest hb hlimit _, rfl⟩
      exact List.ne_nil_of_mem hmem

/-- Without segments and without anything staged, there is nothing to write. -/
theorem segments_commit_of_nil (hix : ix.segments = []) (hw : w.additions = []) :
    (w.commit ix).1.segments = [] := by
  rw [segments_commit, carried_of_nil hix hw]
  rfl

end Writer

/-- Merging makes no segment of nothing. -/
theorem Index.segments_consolidate_of_nil {ix : Index} (h : ix.segments = []) :
    ix.consolidate.segments = [] := by
  have hdocuments : ix.documents = [] := by
    rw [documents, h, List.flatMap_nil]
  unfold consolidate
  rw [hdocuments]
  rfl

namespace Catalog

variable {c : Catalog}

/-! ### A catalog with nothing in it -/

/-- Nothing is stored, nothing is staged, and readers see nothing. -/
structure Bare (c : Catalog) : Prop where
  segments_eq : c.index.segments = []
  additions_eq : c.writer.additions = []
  shown_eq : c.slot.current.segments = []

/-- Readers are told of no event. -/
structure ShowsNothing (c : Catalog) : Prop where
  documents : c.stats.documents = 0
  find : ∀ u, c.find u = .ok none
  list : ∀ r page, c.list r = .ok page → page.events = [] ∧ page.total = 0

theorem publish_nil (slot : SnapshotSlot) (h : slot.current.segments = []) :
    (slot.publish []).2.current.segments = [] := by
  unfold SnapshotSlot.publish
  split
  · exact h
  · rfl

/-- Nothing is staged after a commit, whether it succeeds or not. -/
theorem additions_commit (c : Catalog) (now : Instant) (force : Bool) :
    (c.commit now force).2.writer.additions = [] := by
  by_cases hcan : c.writer.canCommit c.index.schema = true
  · have hnone := Writer.additions_commit c.writer c.index
    obtain ⟨ix, w, hnone, heq⟩ := commit_written hcan now force (P := fun _ w => w.additions = [])
      hnone hnone
    rw [heq]
    exact hnone
  · unfold Catalog.commit
    rw [if_neg hcan]
    rfl

/-- **Committing leaves a bare catalog bare.** -/
theorem Bare.commit (h : c.Bare) (now : Instant) (force : Bool) :
    (c.commit now force).1 = .ok () ∧ (c.commit now force).2.Bare := by
  have hcan : c.writer.canCommit c.index.schema = true := by
    rw [Writer.canCommit, h.additions_eq]
    rfl
  have hwritten := Writer.segments_commit_of_nil h.segments_eq h.additions_eq
  have hnone := Writer.additions_commit c.writer c.index
  obtain ⟨ix, w, ⟨hsegments, hadditions⟩, heq⟩ := commit_written hcan now force
    (P := fun ix w => ix.segments = [] ∧ w.additions = [])
    ⟨hwritten, hnone⟩ ⟨Index.segments_consolidate_of_nil hwritten, hnone⟩
  rw [heq]
  refine ⟨rfl, hsegments, hadditions, ?_⟩
  change (c.slot.publish ix.segments).2.current.segments = []
  rw [hsegments]
  exact publish_nil c.slot h.shown_eq

/-- Where no event is visible, readers are told of none. -/
theorem HoldsEvents.showsNothing_iff (hc : c.HoldsEvents) : c.ShowsNothing ↔ c.visible = [] := by
  constructor
  · intro h
    rw [← List.length_eq_zero_iff, ← hc.documents_stats]
    exact h.documents
  · intro hnone
    refine ⟨by rw [hc.documents_stats, hnone]; rfl, fun u => by rw [hc.find_eq, hnone]; rfl, ?_⟩
    intro r page hpage
    -- a request that is refused shows no page at all
    cases hq : Query.ofFilter .events r.filter with
    | error e =>
      rw [list_error hc hq] at hpage
      exact nomatch hpage
    | ok q =>
      obtain ⟨found, hperm, hlist⟩ := list_visible hc r hq
      rw [hnone, List.filter_nil, List.perm_nil] at hperm
      have hnothing : c.list r = .ok (r.pageOf c.config.maxResults []) := by
        rw [← hperm]
        exact hlist r.limit r.offset
      rw [hnothing] at hpage
      obtain rfl := Except.ok.inj hpage
      simp [Request.pageOf]

/-! ### What clearing leaves -/

/-- Readers see what clearing leaves, because its segments have numbers that no segment had before. -/
theorem shows_clear (h : c.OfEvents) (hn : c.Numbered) (now : Instant) :
    (c.clear now).2.slot.Shows (c.clear now).2.index.segments := by
  have hwritten : ∀ s ∈ (c.emptied.writer.commit c.emptied.index).1.segments,
      c.index.nextId ≤ s.id := by
    intro s hs
    obtain ⟨u, hu, rfl⟩ := List.mem_map.1 (Index.mem_of_mem_arrange hs)
    rcases Writer.mem_flush hu with hold | ⟨hid, -⟩
    · exact absurd hold List.not_mem_nil
    · exact hid.1
  obtain ⟨ix, w, hids, heq⟩ := commit_written h.emptied.canCommit now true
    (P := fun ix _ => ∀ s ∈ ix.segments, c.index.nextId ≤ s.id) hwritten
    fun s hs => (Writer.id_consolidate hs).1 ▸ Nat.le_succ _
  rw [clear_eq, heq]
  refine SnapshotSlot.shows_publish fun s hs t ht hfp => ?_
  -- a snapshot with a segment in common would have a number from before and one from after
  have hold := hn.shown_lt s hs
  have hnew := hids t ht
  have hsame : s.id = t.id := (Prod.mk.inj hfp).1
  omega

/-- Merging what clearing has written keeps the documents. -/
theorem documents_clear (h : c.OfEvents) (now : Instant) :
    (c.clear now).2.index.documents =
      (c.emptied.writer.commit c.emptied.index).1.documents := by
  obtain ⟨ix, w, hdocuments, heq⟩ := commit_written h.emptied.canCommit now true
    (P := fun ix _ => ix.documents = (c.emptied.writer.commit c.emptied.index).1.documents)
    rfl (Index.documents_consolidate _)
  rw [clear_eq, heq]
  exact hdocuments

/-- All that readers see after clearing had been staged. -/
theorem staged_of_mem_clear (h : c.OfEvents) (hn : c.Numbered) {now : Instant} {d : Document}
    (hd : d ∈ (c.clear now).2.slot.current.documents) :
    ∃ a ∈ c.writer.additions, a.document = d := by
  have hdropped : c.emptied.index.segments = [] := rfl
  rw [(shows_clear h hn now).documents, documents_clear h now] at hd
  exact (Writer.documents_commit_of_nil (w := c.emptied.writer) hdropped).1 d hd

/-- Of documents that had been staged, something is left: clearing has committed with the number behind
that of writing, which no staged document is below. -/
theorem documents_clear_ne_nil (h : c.OfEvents) (hn : c.Numbered) (now : Instant)
    (hstaged : c.writer.additions ≠ []) : (c.clear now).2.slot.current.documents ≠ [] := by
  have hdropped : c.emptied.index.segments = [] := rfl
  rw [(shows_clear h hn now).documents, documents_clear h now]
  obtain ⟨a, ha⟩ := List.exists_mem_of_ne_nil _ hstaged
  -- the commit has a number no greater than the first document that is staged
  have hstamp := (Writer.flush_numbers c.emptied.writer c.emptied.index).2.2
  have hleft := (Writer.documents_commit_of_nil (w := c.emptied.writer) hdropped).2 a ha
  exact hleft (Nat.le_trans hstamp (hn.staged_gt a ha))

/-- If nothing had been staged, nothing is left. -/
theorem bare_clear (h : c.OfEvents) (hn : c.Numbered) (now : Instant)
    (hempty : c.writer.additions = []) : (c.clear now).2.Bare := by
  have hwritten : (c.emptied.writer.commit c.emptied.index).1.segments = [] :=
    Writer.segments_commit_of_nil rfl hempty
  obtain ⟨ix, w, hnil, heq⟩ := commit_written h.emptied.canCommit now true
    (P := fun ix _ => ix.segments = []) hwritten (Index.segments_consolidate_of_nil hwritten)
  have hsegments : (c.clear now).2.index.segments = [] := by
    rw [clear_eq, heq]
    exact hnil
  have hshows := shows_clear h hn now
  rw [hsegments] at hshows
  exact ⟨hsegments, additions_commit c.emptied now true, hshows.segments_eq_nil⟩

theorem Bare.visible_eq (h : c.Bare) : c.visible = [] := by
  rw [visible, Snapshot.documents, h.shown_eq]
  rfl

theorem Bare.commits (h : c.Bare) (commits : List (Instant × Bool)) :
    (commits.foldl (fun c p => (c.commit p.1 p.2).2) c).Bare := by
  induction commits generalizing c with
  | nil => exact h
  | cons p rest ih => exact ih (h.commit p.1 p.2).2

theorem OfEvents.commits (h : c.OfEvents) (commits : List (Instant × Bool)) :
    (commits.foldl (fun c p => (c.commit p.1 p.2).2) c).OfEvents := by
  induction commits generalizing c with
  | nil => exact h
  | cons p rest ih => exact ih (h.commit p.1 p.2)

/-- **Clearing removes what has been committed.** Whatever has been done to a catalog since it was opened as
a fresh one, clearing succeeds, and all that readers see afterwards had been staged. They see nothing
exactly if nothing had been; then they go on seeing nothing, however often is committed. -/
theorem clear_iff_unstaged {name : String} {config : SearchConfig}
    (h : create name config = .ok c ∨ ∃ locked, openDirectory name config .absent locked = .ok c)
    (changes : List Change) (now : Instant) :
    let before := changes.foldl Change.apply c
    let after := (before.clear now).2
    (before.clear now).1 = .ok () ∧ after.stats.sinceOptimize = 0 ∧
      (∀ e ∈ after.visible, ∃ a ∈ before.writer.additions, a.document = .ofEvent e) ∧
      (after.ShowsNothing ↔ before.writer.additions = []) ∧
      (before.writer.additions = [] → ∀ commits : List (Instant × Bool),
        (commits.foldl (fun c p => (c.commit p.1 p.2).2) after).ShowsNothing) := by
  intro before after
  have hevents : before.OfEvents := (ofEvents_of_fresh h).changes changes
  have hnumbered : before.Numbered := (numbered_of_fresh h).changes changes
  have hafter : after.OfEvents := hevents.apply (.clear now)
  -- clearing asks for the segments to be merged, so the count of changes begins anew
  have hsince : after.sinceOptimize = 0 := by
    change (before.emptied.commit now true).2.sinceOptimize = 0
    unfold Catalog.commit
    rw [if_pos hevents.emptied.canCommit]
    rfl
  refine ⟨hevents.emptied.commit_ok now true, hsince, ?_, ?_, ?_⟩
  · exact fun e he => staged_of_mem_clear hevents hnumbered (hafter.holdsEvents.mem_visible.1 he)
  · rw [hafter.holdsEvents.showsNothing_iff]
    constructor
    · intro hnone
      by_contra hstaged
      refine documents_clear_ne_nil hevents hnumbered now hstaged ?_
      change after.slot.current.documents = []
      rw [hafter.holdsEvents.documents_eq, hnone]
      rfl
    · exact fun hempty => (bare_clear hevents hnumbered now hempty).visible_eq
  · intro hempty commits
    have hbare := (bare_clear hevents hnumbered now hempty).commits commits
    exact (hafter.commits commits).holdsEvents.showsNothing_iff.2 hbare.visible_eq

/-- An event that has been committed is cleared away. -/
theorem clear_committed :
    let event : Event := .raise (.ofNat 1) .epoch "host" "/Status" "down" .warning
    ∃ c, create "events" .default = .ok c ∧
      ((Change.run (.add .epoch event)).apply c).stats.documents = 1 ∧
      (((Change.run (.add .epoch event)).apply c).clear .epoch).2.ShowsNothing := by
  intro event
  obtain ⟨c, hc⟩ : ∃ c, create "events" .default = .ok c := ⟨_, rfl⟩
  have hcleared := clear_iff_unstaged (.inl hc) [.run (.add .epoch event)] .epoch
  refine ⟨c, hc, ?_, hcleared.2.2.2.1.2 (additions_commit _ _ _)⟩
  cases hc
  decide +kernel

/-- **An event that has only been staged outlives clearing**, and is committed by it. -/
theorem find_cleared :
    let event : Event := .raise (.ofNat 1) .epoch "host" "/Status" "down" .warning
    ∃ c, create "events" .default = .ok c ∧
      (((Change.run (.stage event)).apply c).clear .epoch).1 = .ok () ∧
      (((Change.run (.stage event)).apply c).clear .epoch).2.find (.ofNat 1) = .ok (some event) := by
  intro event
  obtain ⟨c, hc⟩ : ∃ c, create "events" .default = .ok c := ⟨_, rfl⟩
  have hstaged : ((Change.run (.stage event)).apply c).OfEvents :=
    (ofEvents_of_fresh (.inl hc)).apply _
  have hnumbered : ((Change.run (.stage event)).apply c).Numbered :=
    (numbered_of_fresh (.inl hc)).apply _
  refine ⟨c, hc, hstaged.emptied.commit_ok .epoch true, ?_⟩
  have hadditions : ((Change.run (.stage event)).apply c).writer.additions =
      [⟨1, .ofEvent event⟩] := by
    cases hc
    rfl
  have hcount : ((Change.clear .epoch).apply
      ((Change.run (.stage event)).apply c)).stats.documents = 1 := by
    cases hc
    decide +kernel
  -- one event is left, and it has been staged
  have hcleared := (hstaged.apply (.clear .epoch)).holdsEvents
  obtain ⟨e, he⟩ := List.length_eq_one_iff.1 (hcleared.documents_stats.symm.trans hcount)
  have hmem := hcleared.mem_visible.1 (he ▸ List.mem_singleton_self e)
  obtain ⟨a, ha, hdocument⟩ := staged_of_mem_clear hstaged hnumbered hmem
  rw [hadditions, List.mem_singleton] at ha
  rw [ha] at hdocument
  obtain rfl := Document.ofEvent_injective hdocument
  have hfind := hcleared.find_eq (.ofNat 1)
  rw [he] at hfind
  exact hfind

end Catalog

end EventCatalog
