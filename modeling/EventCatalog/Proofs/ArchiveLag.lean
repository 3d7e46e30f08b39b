import EventCatalog.Proofs.IndexingLoop
import EventCatalog.Proofs.Milliseconds
import EventCatalog.Proofs.Purging

/-!
# Late entries of the archive

Of the archive, entries that were made within a lag are left in the queue. The lag is any number of milliseconds. It is
cut to what 64 bits hold, and the time that lies so long ago may be before all times; in both cases the earliest time
takes its place. None of this makes a difference: an entry is read if and only if it was made at least so long ago in
exact arithmetic (`Instant.IsAgo`), or at the earliest time (`Indexer.exists_latest`).

Such entries may be anywhere in the queue. Each cycle reads the first of them and leaves the others, so indexing fully
takes all of them out of the queue, and the late ones stay in their order (`Indexer.indexFully_leaves_late`).
-/

namespace EventCatalog

namespace Instant

variable {t now : Instant} {lag : Nat}

/-- Whether a time lies so many milliseconds before another one, or more. The time so long ago is an exact one, and
need not be one of the representable times. As with the times themselves the seconds are compared first, and a time
within the leap second of `now` is counted in that second. -/
def IsAgo (t now : Instant) (lag : Nat) : Prop :=
  let ago := now.totalNanos - lag * 1000000
  let second := min now.seconds (ago / 1000000000)
  t.seconds < second ∨ t.seconds = second ∧ t.totalNanos ≤ ago

instance (t now : Instant) (lag : Nat) : Decidable (t.IsAgo now lag) := inferInstanceAs (Decidable (_ ∨ _ ∧ _))

/-- But for leap seconds, so many milliseconds or more have passed between the two. -/
theorem isAgo_iff (ht : ¬ t.IsLeap) (hnow : ¬ now.IsLeap) :
    t.IsAgo now lag ↔ lag * 1000000 ≤ now.totalNanos - t.totalNanos := by
  unfold IsLeap at ht hnow
  unfold IsAgo totalNanos
  omega

/-- The longest span reaches back before all times. -/
theorem totalNanos_sub_longest_lt (now : Instant) :
    now.totalNanos - Span.longest.duration.nanos < firstSecond * 1000000000 := by
  have hlast := now.le_last
  have hnanos := now.nanos_lt
  unfold lastSecond at hlast
  -- it is longer than all the time from the earliest to the latest
  simp only [totalNanos, Span.duration, Span.longest, firstSecond]
  omega

/-- So it makes no difference that a lag is cut to it. -/
theorem before?_ofMillis (now : Instant) (lag : Nat) :
    now.before? (Span.ofMillis lag).duration = now.before? ⟨lag * 1000000⟩ := by
  unfold Span.ofMillis
  split
  · rfl
  -- where the lag is cut, both it and the longest span reach back too far
  · next hlong =>
    have hlongest := now.totalNanos_sub_longest_lt
    rw [before?_eq_none hlongest, before?_eq_none]
    simp only [Span.duration, Span.longest] at hlongest
    dsimp only
    omega

/-- No time is before the earliest one. -/
theorem le_earliest_iff : t ≤ earliest ↔ t = earliest := by
  have hfirst := t.first_le
  rw [le_iff]
  constructor
  · intro h
    have hparts : t.seconds = firstSecond ∧ t.nanos = 0 := by
      simp only [earliest] at h
      omega
    exact ext_parts hparts.1 hparts.2
  · rintro rfl
    exact .inr ⟨rfl, Nat.le_refl _⟩

theorem earliest_le (t : Instant) : earliest ≤ t := by
  have hfirst := t.first_le
  rw [le_iff]
  simp only [earliest]
  omega

/-- **The time up to which is read**: what lies a lag ago in exact arithmetic, or else the earliest time. -/
theorem le_before?_iff (t now : Instant) (lag : Nat) :
    t ≤ (now.before? (Span.ofMillis lag).duration).getD earliest ↔ t.IsAgo now lag ∨ t = earliest := by
  rw [before?_ofMillis]
  by_cases hbefore : now.totalNanos - lag * 1000000 < firstSecond * 1000000000
  -- before all times: no time is so long ago
  · have hnone : ¬ t.IsAgo now lag := by
      have hfirst := t.first_le
      unfold IsAgo
      simp only [totalNanos] at hbefore ⊢
      omega
    rw [before?_eq_none hbefore, Option.getD_none, le_earliest_iff, or_iff_right hnone]
  · have hlag : (0 : Int) ≤ lag * 1000000 := by omega
    obtain ⟨bound, hbound, hexact, hseconds⟩ :=
      @exists_before?_eq now ⟨lag * 1000000⟩ hlag (Int.not_lt.1 hbefore)
    -- the bound has the exact time, and the second that goes with it
    have hago : t ≤ bound ↔ t.IsAgo now lag := by
      rw [le_iff, IsAgo, ← hseconds, ← hexact]
      simp only [totalNanos]
      omega
    rw [hbound, Option.getD_some, hago]
    refine ⟨.inl, ?_⟩
    rintro (h | rfl)
    · exact h
    · exact hago.1 (earliest_le bound)

end Instant

namespace Indexer

variable {ix : Indexer} {t : EventTable} {now : Instant} {lag : Nat}

/-- **Up to when entries of the archive are read**: there is such a time for any lag, and not after it are the times
that lie the lag ago, and the earliest one. -/
theorem exists_latest (harchive : ix.drain.table.isArchive = true) (hlag : ix.config.archiveLagMillis = some lag)
    (now : Instant) :
    ∃ bound, ix.latest now = some bound ∧ ∀ time : Instant, time ≤ bound ↔ time.IsAgo now lag ∨ time = .earliest := by
  refine ⟨(now.before? (Span.ofMillis lag).duration).getD .earliest, ?_, fun time => time.le_before?_iff now lag⟩
  rw [latest, if_pos harchive, hlag, Option.map_some]

/-- **The lag of the archive is kept.** Of an archive whose calls do not fail, with any queue, and a catalog that takes
events, for any lag, any time and any size of a batch, indexing fully ends. There is a time up to which its cycles
read, and not after it are the times that lie at least the lag ago in exact arithmetic, and the earliest time. The
entries of these times are read, each once and in the order of the queue; each cycle deletes what it has read, and the
other entries stay in the queue in their order. But for leap seconds, an entry is so old if that many milliseconds or
more have passed since it was made. -/
theorem indexFully_leaves_late (hstore : ix.drain.store = .ofTable t) (harchive : t.isArchive = true)
    (hlag : ix.config.archiveLagMillis = some lag) (hnodup : t.queuedIds.Nodup) (hlimit : 1 ≤ ix.config.batchLimit)
    (hcatalog : ix.catalog.TakesEvents) (clock : Clock) :
    let isOld (q : QueueEntry) : Bool := q.updateTime.IsAgo clock.now lag ∨ q.updateTime = .earliest
    let old := t.queue.filter isOld
    (∃ bound, ix.latest clock.now = some bound ∧
      ∀ time : Instant, time ≤ bound ↔ time.IsAgo clock.now lag ∨ time = .earliest) ∧
    (∃ (reports : List Cycle) (ix' : Indexer),
      Loops clock ix reports ix' ∧
      ix.indexFully clock = (.ok old.length, ix') ∧
      reports.flatMap Cycle.ids = old.map QueueEntry.id ∧
      (∀ r ∈ reports, r.deleted = r.ids.length) ∧
      ix'.drain.store = .ofTable { t with queue := t.queue.filter fun q => !isOld q }) ∧
    ∀ q ∈ t.queue, ¬ q.updateTime.IsLeap → ¬ clock.now.IsLeap →
      (q.updateTime.IsAgo clock.now lag ↔ lag * 1000000 ≤ clock.now.totalNanos - q.updateTime.totalNanos) := by
  intro isOld old
  have htable : ix.drain.table = t := congrArg Connection.table hstore
  obtain ⟨bound, hlatest, hbound⟩ := exists_latest (htable ▸ harchive) hlag clock.now
  -- what is due for a cycle is what is old
  have hisOld : isOld = fun q => EventTable.isDue q (ix.latest clock.now) := by
    funext q
    rw [hlatest, EventTable.isDue, Bool.eq_iff_iff, decide_eq_true_iff, decide_eq_true_iff, hbound]
  have hdue : t.due (ix.latest clock.now) = old := by rw [EventTable.due, ← hisOld]
  have hlate : t.late (ix.latest clock.now) = t.queue.filter fun q => !isOld q := by rw [EventTable.late, hisOld]
  obtain ⟨reports, ix', hloops, hfully, hleft, hids, hdeleted⟩ :=
    exists_indexFully hlimit ⟨hstore, rfl, rfl, hnodup, hcatalog⟩
  rw [hdue] at hfully hids
  rw [hlate] at hleft
  exact ⟨⟨bound, hlatest, hbound⟩, ⟨reports, ix', hloops, hfully, hids, hdeleted, hleft⟩,
    fun q _ hq hnow => Instant.isAgo_iff hq hnow⟩

/-- An archive with a late entry between two old ones. -/
def archiveOfThree : EventTable :=
  let time (seconds : Nat) : Instant := (Instant.ofMillis? (seconds * 1000)).getD .epoch
  let t := ((EventTable.empty EventTable.archiveName true).enqueue (.ofNat 1) (time 9) none).2
  ((t.enqueue (.ofNat 2) (time 10) none).2.enqueue (.ofNat 3) (time 5) none).2

/-- With a lag of one second the late entry stays, although the one behind it is read. -/
theorem indexFully_leaves_late_three :
    ∃ c, Catalog.create "events" .default = .ok c ∧
      let clock : Clock := ⟨(Instant.ofMillis? 10500).getD .epoch, 0⟩
      let ix : Indexer := ⟨.ofStore (.ofTable archiveOfThree) [], c,
        { IndexerConfig.default with batchLimit := 1, archiveLagMillis := some 1000 }, none⟩
      ∃ (reports : List Cycle) (ix' : Indexer), Loops clock ix reports ix' ∧ ix.indexFully clock = (.ok 2, ix') ∧
        reports.flatMap Cycle.ids = [1, 3] ∧ ix'.drain.table.queuedIds = [2] := by
  obtain ⟨c, hc, htakes⟩ := Catalog.exists_takesEvents
  refine ⟨c, hc, ?_⟩
  intro clock ix
  have hnodup : archiveOfThree.queuedIds.Nodup := by decide
  obtain ⟨-, ⟨reports, ix', hloops, hfully, hids, -, hstore⟩, -⟩ := @indexFully_leaves_late ix archiveOfThree 1000
    rfl rfl rfl hnodup (show 1 ≤ 1 by decide) htakes clock
  have hcount : (archiveOfThree.queue.filter fun q =>
      q.updateTime.IsAgo clock.now 1000 ∨ q.updateTime = .earliest).length = 2 := by decide
  have hread : (archiveOfThree.queue.filter fun q =>
      q.updateTime.IsAgo clock.now 1000 ∨ q.updateTime = .earliest).map QueueEntry.id = [1, 3] := by decide
  have hleft : (archiveOfThree.queue.filter fun q =>
      !decide (q.updateTime.IsAgo clock.now 1000 ∨ q.updateTime = .earliest)).map QueueEntry.id = [2] := by decide
  refine ⟨reports, ix', hloops, hcount ▸ hfully, hids.trans hread, ?_⟩
  rw [Drain.table, hstore]
  exact hleft

end Indexer

end EventCatalog
