import EventCatalog.Proofs.CurrentView
import EventCatalog.Proofs.Plans

/-!
# Restarts

What has been committed survives when the catalog is closed and opened again, and nothing else does
(`Catalog.reopened_as_committed`). Only a commit writes to the index, apart from how far segments have got
with the removals (`Change.rewound_apply`), and that starts afresh when the index is opened
(`Catalog.ofIndex_rewound`). So whatever has been done since the last commit, the catalog that is opened is the
one that would have been opened then. It tells its readers what they were told then, since they were up to
date (`Catalog.Current`).
-/

namespace EventCatalog

namespace Index

theorem rewound_rewound (ix : Index) : ix.rewound.rewound = ix.rewound := by
  unfold rewound
  simp only [List.map_map]
  rfl

theorem map_live_rewound (ix : Index) :
    ix.rewound.segments.map Segment.live = ix.segments.map Segment.live := by
  rw [rewound, List.map_map]
  rfl

end Index

namespace Catalog

variable {c c' : Catalog} {name : String} {config : SearchConfig}

/-! ### Opening -/

/-- An index is opened as if it had been rewound before. -/
theorem ofIndex_rewound (ix : Index) (locked : Bool) :
    ofIndex name config ix.rewound locked = ofIndex name config ix locked := by
  unfold ofIndex Index.rewound
  simp only [List.map_map]
  rfl

theorem openDirectory_congr {ix ix' : Index} (h : ix.rewound = ix'.rewound) (locked : Bool) :
    openDirectory name config (.index ix) locked = openDirectory name config (.index ix') locked := by
  have hix : ofIndex name config ix locked = ofIndex name config ix' locked := by
    rw [← ofIndex_rewound ix, h, ofIndex_rewound]
  unfold openDirectory
  simp only [hix]

/-- **Where a directory can be made**, an index of events can be opened. -/
theorem exists_openDirectory {ix : Index} {locked : Bool} (hschema : ix.schema = .events)
    (h : openDirectory name config .absent locked = .ok c) :
    ∃ c', openDirectory name config (.index ix) false = .ok c' := by
  obtain ⟨_, hvalid, hix⟩ := Except.bind_eq_ok.1 h
  -- what is asked of the writer does not depend on the index
  have hheap : ¬ config.writerHeapSize / config.effectiveThreads ≥ heapPerThreadLimit := by
    intro hheap
    unfold ofIndex at hix
    simp only [Index.empty, Schema.missingEventField?_events, hheap, decide_true, Bool.or_true,
      if_true] at hix
    cases hix
  obtain ⟨c', hopen⟩ : ∃ c', ofIndex name config ix false = .ok c' := by
    unfold ofIndex
    simp only [hschema, Schema.missingEventField?_events, hheap, decide_false, Bool.or_false,
      Bool.false_eq_true, if_false]
    exact ⟨_, rfl⟩
  exact ⟨c', Except.bind_eq_ok.2 ⟨(), hvalid, hopen⟩⟩

/-! ### What changes leave as it is -/

theorem index_stageRemove (c : Catalog) (u : Uuid) : (c.stageRemove u).index = c.index := by
  unfold stageRemove
  split <;> rfl

theorem kept_index (ix : Index) : KeptStaging fun c => c.index.rewound = ix where
  stage := fun {c} e h => (congrArg Index.rewound (index_stageRemove c e.uuid)).trans h
  stageRemove := fun {c} u h => (congrArg Index.rewound (index_stageRemove c u)).trans h
  remove := fun _ h => h
  lease := fun _ _ h => h

end Catalog

/-- **A change that does not commit** writes nothing to the index. -/
theorem Change.rewound_apply {c : Catalog} (h : c.OfEvents) {change : Change}
    (hcommit : change.commits c = false) : (change.apply c).index.rewound = c.index.rewound := by
  rw [commits_eq h, Option.isSome_eq_false_iff, Option.isNone_iff_eq_none] at hcommit
  rw [apply_eq_result, Plan.result, hcommit]
  refine (Catalog.kept_index c.index.rewound).plan rfl change ?_ ?_
  -- clearing commits, so it is not among these changes
  · rintro now rfl
    cases hcommit
  -- the index is rewound when it is opened, which makes no difference if it has been rewound before
  · rintro rfl
    rw [apply]
    cases hopen : Catalog.openDirectory c.name c.config c.close false with
    | error e => rfl
    | ok c' =>
      obtain rfl := Catalog.eq_of_ofIndex (Catalog.ofIndex_of_openDirectory hopen).2
      exact c.index.rewound_rewound

namespace Catalog

variable {c : Catalog} {name : String} {config : SearchConfig}

/-- **Changes that do not commit** write nothing to the index, one after the other. -/
theorem OfEvents.rewound_since (h : c.OfEvents) {since : List Change}
    (hnone : Change.NoneOf Change.commits c since) :
    (since.foldl Change.apply c).index.rewound = c.index.rewound := by
  induction since generalizing c with
  | nil => rfl
  | cons change rest ih => exact (ih (h.apply change) hnone.2).trans (Change.rewound_apply h hnone.1)

/-- **What has been committed survives a restart, and nothing else does.** Whatever has been done to a
catalog since its directory was made, with any number of restarts: the directory can be opened again, and the
catalog that is opened is the one that would have been opened right after the last commit. It tells its
readers what they were told then, it has nothing staged, and its counters start at zero. -/
theorem reopened_as_committed {c₀ : Catalog} {locked : Bool}
    (h : openDirectory name config .absent locked = .ok c₀) (changes : List Change) :
    ∃ before since, changes = before ++ since ∧ Change.LastOf Change.commits c₀ before since ∧
      let committed := before.foldl Change.apply c₀
      ∃ c, openDirectory name config (changes.foldl Change.apply c₀).close false = .ok c ∧
        openDirectory name config committed.close false = .ok c ∧
        c.SameAnswers committed ∧
        c.stats.sinceOptimize = 0 ∧ c.stats.generation = 0 ∧ c.stats.leases = 0 ∧
        c.writer.additions = [] ∧ c.writer.removals = [] := by
  obtain ⟨before, since, rfl, hlast⟩ := Change.exists_lastOf Change.commits c₀ changes
  refine ⟨before, since, rfl, hlast, ?_⟩
  intro committed
  -- readers were up to date after the last commit, so they were told what had been written
  have hcurrent : committed.Current := (current_of_fresh (.inr ⟨locked, h⟩)).changes before
  obtain ⟨-, _, hfresh⟩ := ofIndex_of_fresh (.inr ⟨locked, h⟩)
  have hconfig : committed.config = config := by
    obtain rfl := eq_of_ofIndex hfresh
    exact (settings_changes ⟨rfl, rfl⟩ before).2
  -- nothing has been written since the last commit
  have hrewound : ((before ++ since).foldl Change.apply c₀).index.rewound = committed.index.rewound := by
    rw [List.foldl_append]
    exact hcurrent.events.rewound_since hlast.none_since
  obtain ⟨c, hopen⟩ := exists_openDirectory hcurrent.events.schema_eq h
  refine ⟨c, (openDirectory_congr hrewound false).trans hopen, hopen, ?_⟩
  obtain ⟨-, hix⟩ := ofIndex_of_openDirectory hopen
  obtain rfl := eq_of_ofIndex hix
  refine ⟨sameAnswers_of_live rfl hconfig.symm ?_, rfl, rfl, rfl, rfl, rfl⟩
  calc committed.index.rewound.segments.map Segment.live
      = committed.index.segments.map Segment.live := committed.index.map_live_rewound
    _ = committed.slot.current.segments.map Segment.live := (Segment.map_live_eq hcurrent.shows).symm

/-- An event that was added is there again, and one that was only staged is gone. -/
theorem reopened_as_committed_staged :
    let event (n : Nat) : Event := .raise (.ofNat n) .epoch "host" "/Status" "down" .warning
    ∃ c₀ c, openDirectory "events" .default .absent false = .ok c₀ ∧
      openDirectory "events" .default ([.run (.add .epoch (event 1)), .reopen,
        .run (.stage (event 2))].foldl Change.apply c₀).close false = .ok c ∧
      c.find (.ofNat 1) = .ok (some (event 1)) ∧ c.find (.ofNat 2) = .ok none := by
  intro event
  obtain ⟨c₀, h⟩ : ∃ c₀, openDirectory "events" .default .absent false = .ok c₀ := ⟨_, rfl⟩
  obtain ⟨before, since, hchanges, ⟨hends, hnone⟩, c, hopen, -, hanswers, -⟩ := reopened_as_committed h
    [.run (.add .epoch (event 1)), .reopen, .run (.stage (event 2))]
  -- the last commit is that of the addition, since neither of the other changes commits
  obtain rfl : before = [.run (.add .epoch (event 1))] := by
    have hadd : Change.commits c₀ (.run (.add .epoch (event 1))) = true :=
      Change.commits_eq (ofEvents_of_fresh (.inr ⟨_, h⟩)) _
    rcases hends with rfl | ⟨earlier, last, rfl, hlast⟩
    · obtain rfl : _ = since := hchanges
      exact nomatch hadd.symm.trans hnone.1
    · cases earlier with
      | nil => rw [List.nil_append, (List.cons.inj hchanges).1]
      | cons first rest =>
        have hmem : last ∈ [Change.reopen, .run (.stage (event 2))] := by
          rw [(List.cons.inj hchanges).2]
          simp
        rcases List.mem_pair.1 hmem with rfl | rfl
        · exact nomatch hlast
        · exact nomatch hlast
  have hadded := ((tracks_of_fresh (.inr ⟨_, h⟩)).run (m := (∅, ∅)) (.add .epoch (event 1))).2
  refine ⟨c₀, c, h, hopen, ?_, ?_⟩
  · rw [hanswers.find_eq]
    exact (hadded.find_eq _).trans (congrArg Except.ok (Finmap.lookup_insert _))
  · rw [hanswers.find_eq]
    refine (hadded.find_eq _).trans (congrArg Except.ok ?_)
    exact Finmap.lookup_insert_of_ne _ (by decide)

end Catalog

end EventCatalog
