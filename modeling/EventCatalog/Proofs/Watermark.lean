import EventCatalog.Proofs.Draining
import EventCatalog.Proofs.Milliseconds

/-!
# The watermark of a drain

A drain keeps the latest of the times at which the rows that it has read were made, in whole milliseconds. It takes
note of a row as soon as it has read it, before the row is passed over as a repetition and before the handler is asked
anything. So after any history of the store and of the drain, `Drain.watermark` is the greatest of the times of all
rows that were read, whatever has become of them (`Drain.watermark_runAll`).

What the drain makes known is the time that these milliseconds stand for. There is such a time unless a row was made
within the leap second at the end of all times, whose milliseconds lie behind them (`Instant.IsFinalLeap`). Up to then
the time never moves backwards (`Drain.lastIndexTime_spec`). When such a row is read, it is lost for good, although
rows have been read (`Drain.lastIndexTime_lost`).
-/

namespace EventCatalog

namespace Drain

/-! ### Histories -/

/-- Something that happens to a store, or a drain of its queue. Each drain has a handler of its own kind, which may
fail at any call. -/
inductive Step : Type 1 where
  | upsert (e : Event)
  | remove (now : Instant) (u : Uuid)
  | enqueue (u : Uuid) (time : Instant) (seen : Option Instant)
  | deleteEntries (ids : List Int)
  /-- From now on, so many calls of a kind fail; or none. -/
  | outage (o : Option Outage)
  | drain {η : Type} [BatchHandler η] (handler : η) (limit : Nat) (latest : Option Instant)

/-- The table is changed. -/
def onTable (d : Drain) (f : EventTable → EventTable) : Drain :=
  { d with store := { d.store with table := f d.store.table } }

/-- The drain after a step. -/
def Step.run (d : Drain) : Step → Drain
  | upsert e => d.onTable fun t => (t.upsert e).2
  | remove now u => d.onTable fun t => (t.remove now u).2
  | enqueue u time seen => d.onTable fun t => (t.enqueue u time seen).2
  | deleteEntries ids => (d.deleteEntries ids).2
  | outage o => { d with store := { d.store with outage := o } }
  | @drain _ _ handler limit latest => (d.run handler limit latest).2.1

/-- The rows that a step reads. -/
def Step.reads (d : Drain) : Step → List QueueRow
  | drain _ limit latest => (d.store.fetch limit latest).1.toOption.getD []
  | _ => []

/-- The drain after steps, one after the other. -/
def runAll (d : Drain) (steps : List Step) : Drain := steps.foldl Step.run d

/-- The rows that steps read, one after the other. -/
def readsAll (d : Drain) : List Step → List QueueRow
  | [] => []
  | s :: rest => s.reads d ++ readsAll (s.run d) rest

/-- The milliseconds of the times at which rows were made. -/
def times (rows : List QueueRow) : List Int := rows.map fun r => r.entry.updateTime.millis

variable {d : Drain}

theorem advance_append (watermark : Option Int) (xs ys : List QueueRow) :
    advance watermark (xs ++ ys) = advance (advance watermark xs) ys := List.foldl_append

/-- A drain takes note of the rows once they are read, whatever the handler makes of them. -/
theorem watermark_of_run {η : Type} [BatchHandler η] (d : Drain) (handler : η) (limit : Nat)
    (latest : Option Instant) :
    (d.run handler limit latest).2.1.watermark =
      advance d.watermark ((d.store.fetch limit latest).1.toOption.getD []) := by
  unfold run
  -- the handler and the observers come after the watermark, so none of their outcomes matters
  rcases hfetch : d.store.fetch limit latest with ⟨_ | rows, store⟩
  · rfl
  · dsimp only
    rcases HandlerCall.performAll handler (Batch.ofRows rows).calls with ⟨_ | _, h'⟩
    · rfl
    · dsimp only
      rcases store.pending with ⟨_ | size, store'⟩ <;> rfl

/-- **One step** takes the watermark on by the rows that it reads. -/
theorem watermark_run (d : Drain) (s : Step) : (s.run d).watermark = advance d.watermark (s.reads d) := by
  cases s with
  | upsert e => rfl
  | remove now u => rfl
  | enqueue u time seen => rfl
  | deleteEntries ids => rfl
  | outage o => rfl
  | drain handler limit latest => exact watermark_of_run d handler limit latest

theorem watermark_foldl (d : Drain) (steps : List Step) :
    (d.runAll steps).watermark = advance d.watermark (d.readsAll steps) := by
  -- on the steps, for any drain: the later ones start from what the first has left
  induction steps generalizing d with
  | nil => rfl
  | cons s rest ih =>
    rw [readsAll, advance_append, ← watermark_run]
    exact ih (s.run d)

theorem runAll_append (d : Drain) (steps more : List Step) :
    d.runAll (steps ++ more) = (d.runAll steps).runAll more := List.foldl_append

theorem readsAll_append (d : Drain) (steps more : List Step) :
    d.readsAll (steps ++ more) = d.readsAll steps ++ (d.runAll steps).readsAll more := by
  induction steps generalizing d with
  | nil => rfl
  | cons s rest ih =>
    rw [List.cons_append, readsAll, readsAll, ih, List.append_assoc]
    rfl

/-- **The watermark of a whole run** is the greatest of the times of all rows that were read. -/
theorem watermark_runAll (store : Connection) (observers : List Observer) (steps : List Step) :
    ((ofStore store observers).runAll steps).watermark =
      (times ((ofStore store observers).readsAll steps)).max? := by
  rw [watermark_foldl, advance_eq_max?]
  -- a new drain has no watermark, so nothing is in front of the rows
  rfl

/-! ### The time that is made known -/

theorem exists_row_of_max? {rows : List QueueRow} {ms : Int} (h : (times rows).max? = some ms) :
    (∃ r ∈ rows, r.entry.updateTime.millis = ms) ∧ ∀ r ∈ rows, r.entry.updateTime.millis ≤ ms := by
  obtain ⟨hmem, hmax⟩ := List.max?_eq_some_iff.1 h
  exact ⟨List.mem_map.1 hmem, fun r hr => hmax _ (List.mem_map_of_mem hr)⟩

/-- No time can be made of the greatest of some times, if there are none, or one is within the final leap second. -/
theorem bind_max?_eq_none_iff (rows : List QueueRow) :
    (times rows).max?.bind Instant.ofMillis? = none ↔
      rows = [] ∨ ∃ r ∈ rows, r.entry.updateTime.IsFinalLeap := by
  cases hmax : (times rows).max? with
  | none =>
    rw [List.max?_eq_none_iff, times, List.map_eq_nil_iff] at hmax
    exact iff_of_true rfl (.inl hmax)
  | some ms =>
    obtain ⟨⟨r, hr, rfl⟩, hgreatest⟩ := exists_row_of_max? hmax
    rw [Option.bind_some, Instant.ofMillis?_millis]
    constructor
    · exact fun hleap => .inr ⟨r, hr, hleap⟩
    · rintro (rfl | ⟨r', hr', hleap⟩)
      · exact absurd hr List.not_mem_nil
      -- the times within that second are greater than all others
      · rw [Instant.isFinalLeap_iff] at hleap ⊢
        exact Int.le_trans hleap (hgreatest r' hr')

/-- **The time that a drain makes known**, after any changes of the store, deletions, failures and drains. The
watermark is the greatest of the times of all rows that any drain has read, also of those that repeat an event and of
those of drains that failed. There is no time as long as no row has been read; and none once a row was read that was
made within the leap second at the end of all times. If there is one, it is the watermark, in whole milliseconds, and
a time that is made known later is not before it. -/
theorem lastIndexTime_spec (store : Connection) (observers : List Observer) (steps more : List Step) :
    let d := (ofStore store observers).runAll steps
    let rows := (ofStore store observers).readsAll steps
    d.watermark = (times rows).max? ∧
    (d.lastIndexTime = none ↔ rows = [] ∨ ∃ r ∈ rows, r.entry.updateTime.IsFinalLeap) ∧
    (∀ t, d.lastIndexTime = some t → some t.millis = (times rows).max? ∧ t.nanos % 1000000 = 0) ∧
    ∀ t t', d.lastIndexTime = some t → (d.runAll more).lastIndexTime = some t' → t ≤ t' := by
  intro d rows
  have hwatermark : d.watermark = (times rows).max? := watermark_runAll store observers steps
  have hlast : d.lastIndexTime = (times rows).max?.bind Instant.ofMillis? := by rw [lastIndexTime, hwatermark]
  refine ⟨hwatermark, ?_, fun t ht => ?_, fun t t' ht ht' => ?_⟩
  · rw [hlast]
    exact bind_max?_eq_none_iff rows
  · rw [hlast, Option.bind_eq_some_iff] at ht
    obtain ⟨ms, hmax, ht⟩ := ht
    obtain ⟨hmillis, hwhole⟩ := Instant.millis_of_ofMillis? ht
    rw [hmax, hmillis]
    exact ⟨rfl, hwhole⟩
  -- the rows that were read before are among those that were read in the end
  · obtain ⟨ms, hms, ht⟩ := Option.bind_eq_some_iff.1 ht
    obtain ⟨ms', hms', ht'⟩ := Option.bind_eq_some_iff.1 ht'
    rw [watermark_runAll] at hms
    rw [← runAll_append, watermark_runAll, readsAll_append] at hms'
    obtain ⟨⟨r, hr, hrms⟩, -⟩ := exists_row_of_max? hms
    obtain ⟨-, hgreatest⟩ := exists_row_of_max? hms'
    have hle : ms ≤ ms' := calc
      ms = r.entry.updateTime.millis := hrms.symm
      _ ≤ ms' := hgreatest r (List.mem_append_left _ hr)
    exact Instant.le_of_ofMillis? ht ht' hle

/-- An event that was changed so many nanoseconds into the last second that can be represented. A whole second and
more of them reach into the leap second behind it. -/
def changedLast (nanos : Nat) : Event :=
  { Event.raise (.ofNat 1) .epoch "host" "/Status" "down" .warning with
    updateTime := (Instant.of? Instant.lastSecond nanos).getD .epoch }

/-- The event is changed half a second before the end of the last second, and drained. -/
def lastChange : List Step :=
  [.upsert (changedLast 500000000), .drain (⟨[], false, none⟩ : Recorder) 10 none]

/-- It is changed once more a second later, and drained. -/
def leapChange : List Step :=
  [.upsert (changedLast 1500000000), .drain (⟨[], false, none⟩ : Recorder) 10 none]

/-- **The time can be lost.** It is known after the first drain, and not after the second, though both have read rows
and the watermark has gone up. -/
theorem lastIndexTime_lost :
    let d := ofStore (.ofTable (.empty EventTable.summaryName false)) []
    (d.runAll lastChange).lastIndexTime = some (changedLast 500000000).updateTime ∧
    (d.runAll (lastChange ++ leapChange)).lastIndexTime = none ∧
    (d.readsAll (lastChange ++ leapChange)).map (fun r => r.entry.id) = [1, 1, 2] ∧
    (d.runAll (lastChange ++ leapChange)).watermark =
      some (changedLast 1500000000).updateTime.millis := by
  decide +kernel

end Drain

end EventCatalog
