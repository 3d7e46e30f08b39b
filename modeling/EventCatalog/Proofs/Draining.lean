import EventCatalog.Proofs.Tables
import EventCatalog.Queue.Recorder

/-!
# What a drain asks of its handler

A drain joins the fetched rows with the table, and lets the first row of each event decide whether the
event was changed or removed (`Batch.leading`). It tells the handler all changed events at once, then each
of them, then each removed one, and then that the batch is complete. It stops right behind the first call
that fails (`Drain.run_protocol`).

A handler is anything that makes something of a call and may fail at it, also depending on the calls
before. So that the calls can be seen whatever the handler makes of them, it is wrapped in one that keeps a
note of each (`Noted`). The wrapped handler answers as the handler itself does
(`HandlerCall.Succeed.noted`), and the drain cannot tell the two apart.

`HandlerCall.Succeed` says that calls succeed one after the other. Calls either all succeed or there is a
first that fails (`HandlerCall.succeed_or_fails`), and what a drain does is read off that.
-/

namespace EventCatalog

/-! ### The rows that decide -/

namespace Batch

/-- The rows before which no row is about the same event, in the order of the rows. -/
def leading (rows : List QueueRow) : List QueueRow :=
  (rows.zipIdx.filter fun p => (rows.take p.2).all fun s => s.entry.uuid != p.1.entry.uuid).map Prod.fst

/-- A further row is a first row if no row before it is about its event. -/
theorem firstRows_concat (rows : List QueueRow) (r : QueueRow) :
    firstRows (rows ++ [r]) =
      firstRows rows ++ if rows.all fun s => s.entry.uuid != r.entry.uuid then [r] else [] := by
  induction rows with
  | nil => rfl
  | cons r₀ rest ih =>
    rw [List.cons_append, firstRows, ih, List.filter_append, firstRows, List.cons_append, List.all_cons]
    congr 2
    -- the new row is dropped if it is about the event of the first row, or of one behind that
    rw [Bool.and_comm, bne_comm]
    cases rest.all fun s => s.entry.uuid != r.entry.uuid with
    | false => rfl
    | true =>
      rw [Bool.true_and, if_pos rfl, List.filter_singleton]
      cases r.entry.uuid != r₀.entry.uuid <;> rfl

theorem leading_concat (rows : List QueueRow) (r : QueueRow) :
    leading (rows ++ [r]) =
      leading rows ++ if rows.all fun s => s.entry.uuid != r.entry.uuid then [r] else [] := by
  unfold leading
  rw [List.zipIdx_append, List.filter_append, List.map_append]
  congr 1
  -- a row stands behind the same rows as before
  · congr 1
    refine List.filter_congr fun p hp => ?_
    have hlt : p.2 < rows.length := by simpa using List.snd_lt_of_mem_zipIdx hp
    rw [List.take_append_of_le_length (Nat.le_of_lt hlt)]
  · simp only [List.zipIdx_singleton, Nat.zero_add, List.filter_singleton, List.take_left]
    cases rows.all fun s => s.entry.uuid != r.entry.uuid <;> rfl

/-- The rows that decide are those that lead. -/
theorem firstRows_eq_leading (rows : List QueueRow) : firstRows rows = leading rows := by
  induction rows using List.reverseRecOn with
  | nil => rfl
  | append_singleton rows r ih => rw [firstRows_concat, leading_concat, ih]

/-- A row contributes the identifier of its event to the changed ones or to the removed ones. -/
theorem uuids_perm {rows : List QueueRow} (hkeyed : ∀ r ∈ rows, r.Keyed) :
    ((rows.filterMap QueueRow.event).map Event.uuid ++
      (rows.filter fun r => r.event.isNone).map fun r => r.entry.uuid).Perm
        (rows.map fun r => r.entry.uuid) := by
  induction rows with
  | nil => exact .refl _
  | cons r rest ih =>
    have hrest := ih fun s hs => hkeyed s (List.mem_cons_of_mem r hs)
    cases hevent : r.event with
    | none =>
      rw [List.filterMap_cons_none hevent, List.filter_cons_of_pos (by rw [hevent]; rfl), List.map_cons,
        List.map_cons]
      exact List.perm_middle.trans (hrest.cons _)
    | some e =>
      rw [List.filterMap_cons_some hevent, List.filter_cons_of_neg (by rw [hevent]; nofun), List.map_cons,
        List.map_cons, List.cons_append, hkeyed r List.mem_cons_self e hevent]
      exact hrest.cons _

/-- The changed and the removed events of a batch are the events of its rows, each of them once. -/
theorem partition_ofRows {rows : List QueueRow} (hkeyed : ∀ r ∈ rows, r.Keyed) :
    let b := ofRows rows
    (b.changed.map Event.uuid ++ b.removed).Nodup ∧
      ∀ u, u ∈ b.changed.map Event.uuid ++ b.removed ↔ ∃ r ∈ rows, r.entry.uuid = u := by
  have hperm := uuids_perm fun r hr => hkeyed r (mem_of_mem_firstRows hr)
  refine ⟨hperm.nodup_iff.2 (firstRows_nodup _), fun u => hperm.mem_iff.trans ?_⟩
  rw [List.mem_map]
  constructor
  · rintro ⟨r, hr, huuid⟩
    exact ⟨r, mem_of_mem_firstRows hr, huuid⟩
  -- the event of a row has a row that decides, which is a first row
  · rintro ⟨r, hr, huuid⟩
    cases hdecider : decider rows u with
    | none => exact absurd huuid (forall_ne_of_decider hdecider r hr)
    | some s => exact ⟨s, mem_firstRows_of_decider hdecider⟩

/-- **The changed and the removed events of a fetch** are the events of its rows, each of them once. -/
theorem partition_fetch (t : EventTable) (limit : Nat) (latest : Option Instant) :
    let b := ofRows (t.fetch limit latest)
    (b.changed.map Event.uuid ++ b.removed).Nodup ∧
      ∀ u, u ∈ b.changed.map Event.uuid ++ b.removed ↔
        ∃ r ∈ t.fetch limit latest, r.entry.uuid = u :=
  partition_ofRows EventTable.keyed_of_mem_fetch

/-- They are as many as the identifiers in the rows. -/
theorem length_changed_add_removed {rows : List QueueRow} (hkeyed : ∀ r ∈ rows, r.Keyed) :
    (ofRows rows).changed.length + (ofRows rows).removed.length =
      (rows.map fun r => r.entry.uuid).dedup.length := by
  obtain ⟨hnodup, hmem⟩ := partition_ofRows hkeyed
  -- without repetitions the identifiers of the rows are those of the changed and the removed events
  have hperm : ((ofRows rows).changed.map Event.uuid ++ (ofRows rows).removed).Perm
      (rows.map fun r => r.entry.uuid).dedup := by
    refine (List.perm_ext_iff_of_nodup hnodup (List.nodup_dedup _)).2 fun u => ?_
    rw [hmem, List.mem_dedup, List.mem_map]
  rw [← hperm.length_eq, List.length_append, List.length_map]

/-- The calls of a batch, as the rows that decide have them. -/
theorem calls_ofRows (rows : List QueueRow) :
    (ofRows rows).calls =
      let changed := (leading rows).filterMap QueueRow.event
      let removed := ((leading rows).filter fun r => r.event.isNone).map fun r => r.entry.uuid
      (if changed = [] then [] else [.prepare changed]) ++ changed.map .handle ++ removed.map .drop ++
        if rows = [] then [] else [.complete] := by
  unfold calls ofRows
  simp only [firstRows_eq_leading, List.isEmpty_iff, List.map_eq_nil_iff]

end Batch

/-! ### Calls one after the other -/

namespace HandlerCall

variable {η : Type} [BatchHandler η]

/-- The calls succeed, one after the other, and make `h'` of the handler `h`. -/
inductive Succeed : η → List HandlerCall → η → Prop where
  | nil (h : η) : Succeed h [] h
  | cons {h h₁ h' : η} {call : HandlerCall} {rest : List HandlerCall}
      (first : BatchHandler.perform h call = (.ok (), h₁)) (others : Succeed h₁ rest h') :
      Succeed h (call :: rest) h'

variable {h h' h₁ : η} {calls done rest : List HandlerCall} {call : HandlerCall} {e : ServiceError}

/-- Calls that succeed are all made. -/
theorem Succeed.performAll_eq (hcalls : Succeed h calls h') : performAll h calls = (.ok (), h') := by
  induction hcalls with
  | nil => rfl
  | cons first _ ih =>
    rw [performAll, first]
    exact ih

/-- No call behind one that fails is made. -/
theorem Succeed.performAll_failing (hdone : Succeed h done h₁)
    (hcall : BatchHandler.perform h₁ call = (.error e, h')) (rest : List HandlerCall) :
    performAll h (done ++ call :: rest) = (.error (call.failure e), h') := by
  rw [performAll_append hdone.performAll_eq, performAll, hcall]

/-- All calls succeed, or there is a first one that fails. -/
theorem succeed_or_fails (h : η) (calls : List HandlerCall) :
    (∃ h', Succeed h calls h') ∨ ∃ done call rest h₁ e h',
      calls = done ++ call :: rest ∧ Succeed h done h₁ ∧
        BatchHandler.perform h₁ call = (.error e, h') := by
  induction calls generalizing h with
  | nil => exact .inl ⟨h, .nil h⟩
  | cons call rest ih =>
    rcases hcall : BatchHandler.perform h call with ⟨answer, h₁⟩
    cases answer with
    | error e => exact .inr ⟨[], call, rest, h, e, h₁, rfl, .nil h, hcall⟩
    | ok =>
      rcases ih h₁ with ⟨h', hrest⟩ | ⟨done, failing, behind, h₂, e, h', hsplit, hdone, hfailing⟩
      · exact .inl ⟨h', .cons hcall hrest⟩
      · exact .inr ⟨call :: done, failing, behind, h₂, e, h', by rw [hsplit]; rfl, .cons hcall hdone,
          hfailing⟩

/-- What could not be completed is fatal, all else can be tried again. -/
theorem kind_failure (call : HandlerCall) (e : ServiceError) :
    (call.failure e).kind = if call = .complete then .indexingFatal else .processing := by
  cases call <;> rfl

end HandlerCall

/-! ### Keeping a note of the calls -/

/-- A handler, and the calls that it was asked to make. -/
structure Noted (η : Type) where
  handler : η
  calls : List HandlerCall

/-- The handler answers, and the call is noted whatever it answers. -/
instance {η : Type} [BatchHandler η] : BatchHandler (Noted η) where
  perform n call :=
    let answer := BatchHandler.perform n.handler call
    (answer.1, ⟨answer.2, n.calls ++ [call]⟩)

namespace HandlerCall

variable {η : Type} [BatchHandler η] {h h' : η} {calls : List HandlerCall}

theorem Succeed.noted (hcalls : Succeed h calls h') (notes : List HandlerCall) :
    Succeed (⟨h, notes⟩ : Noted η) calls ⟨h', notes ++ calls⟩ := by
  induction hcalls generalizing notes with
  | nil h =>
    rw [List.append_nil]
    exact .nil _
  | @cons h h₁ h' call rest first _ ih =>
    have hcall : BatchHandler.perform (⟨h, notes⟩ : Noted η) call = (.ok (), ⟨h₁, notes ++ [call]⟩) := by
      change ((BatchHandler.perform h call).1, (⟨(BatchHandler.perform h call).2, _⟩ : Noted η)) = _
      rw [first]
    have hrest := ih (notes ++ [call])
    -- the note of this call comes before those of the others
    rw [List.append_assoc, List.singleton_append] at hrest
    exact .cons hcall hrest

end HandlerCall

/-! ### The protocol -/

namespace Drain

/-- The watermark is the greatest of the times that were read. -/
theorem advance_eq_max? (watermark : Option Int) (rows : List QueueRow) :
    advance watermark rows =
      (watermark.toList ++ rows.map fun r => r.entry.updateTime.millis).max? := by
  unfold advance
  induction rows generalizing watermark with
  | nil => cases watermark <;> rfl
  | cons r rest ih =>
    rw [List.foldl_cons, ih, List.map_cons]
    -- the first time either comes behind a watermark or takes the place of one
    cases watermark with
    | none => rfl
    | some m =>
      simp only [Option.toList_some, List.singleton_append, List.max?_cons', List.foldl_cons]

/-- **What a drain asks of its handler**, whatever the rows and whatever the handler makes of the calls.
Of the table it is only asked that its queue is in the order of the numbers, as every operation leaves it
(`EventTable.Numbered`). The rows that decide name the event of every row once, as changed or as removed. The
calls are made in their order, up to the first that fails and with it. If none fails, the outcome is the
numbers of all rows, which increase, and each observer is told the length of the queue and the limit. If one
fails, nothing is made known, and the error says whether it was the completion. Either way all rows stay in
the queue, and the watermark is the greatest of the times that were read. -/
theorem run_protocol {η : Type} [BatchHandler η] {d : Drain} {t : EventTable}
    (hstore : d.store = .ofTable t) (hqueue : t.queuedIds.Pairwise (· < ·)) (h : η) (limit : Nat)
    (latest : Option Instant) :
    let rows := t.fetch limit latest
    let changed := (Batch.leading rows).filterMap QueueRow.event
    let removed := ((Batch.leading rows).filter fun r => r.event.isNone).map fun r => r.entry.uuid
    let calls : List HandlerCall := (if changed = [] then [] else [.prepare changed]) ++
      changed.map .handle ++ removed.map .drop ++ if rows = [] then [] else [.complete]
    (changed.map Event.uuid ++ removed).Nodup ∧
    (∀ u, u ∈ changed.map Event.uuid ++ removed ↔ ∃ r ∈ rows, r.entry.uuid = u) ∧
    ∃ outcome d' h' made,
      d.run h limit latest = (outcome, d', h') ∧
      d.run (⟨h, []⟩ : Noted η) limit latest = (outcome, d', ⟨h', made⟩) ∧
      d'.store = .ofTable t ∧
      d'.watermark = (d.watermark.toList ++ rows.map fun r => r.entry.updateTime.millis).max? ∧
      ((HandlerCall.Succeed h calls h' ∧ made = calls ∧
        outcome = .ok (rows.map fun r => r.entry.id) ∧
        (rows.map fun r => r.entry.id).Pairwise (· < ·) ∧
        d'.lastSize = some t.pending ∧
        d'.observers = d.observers.map
          (Observer.notice ⟨t.name, t.pending.toUInt64, limit.toUInt64⟩)) ∨
      ∃ done call rest h₁ e,
        calls = done ++ call :: rest ∧ HandlerCall.Succeed h done h₁ ∧
        BatchHandler.perform h₁ call = (.error e, h') ∧ made = done ++ [call] ∧
        outcome = .error (call.failure e) ∧
        (call.failure e).kind = (if call = .complete then .indexingFatal else .processing) ∧
        d'.lastSize = d.lastSize ∧ d'.observers = d.observers) := by
  intro rows changed removed calls
  have hcalls : (Batch.ofRows rows).calls = calls := Batch.calls_ofRows rows
  obtain ⟨hnodup, hmem⟩ := Batch.partition_fetch t limit latest
  have hchanged : (Batch.ofRows rows).changed = changed := by
    change (Batch.firstRows rows).filterMap QueueRow.event = _
    rw [Batch.firstRows_eq_leading]
  have hremoved : (Batch.ofRows rows).removed = removed := by
    change ((Batch.firstRows rows).filter _).map _ = _
    rw [Batch.firstRows_eq_leading]
  rw [hchanged, hremoved] at hnodup hmem
  refine ⟨hnodup, hmem, ?_⟩
  have hread : (d.havingRead t rows).watermark =
      (d.watermark.toList ++ rows.map fun r => r.entry.updateTime.millis).max? :=
    advance_eq_max? d.watermark rows
  rw [run_eq hstore, run_eq hstore, hcalls]
  rcases HandlerCall.succeed_or_fails h calls with
    ⟨h', hsucceed⟩ | ⟨done, call, rest, h₁, e, h', hsplit, hdone, hcall⟩
  -- no call fails: they are all made and noted
  · rw [hsucceed.performAll_eq, (hsucceed.noted []).performAll_eq]
    exact ⟨_, _, h', _, rfl, rfl, rfl, hread,
      .inl ⟨hsucceed, rfl, rfl, hqueue.sublist (t.ids_fetch_sublist limit latest), rfl, rfl⟩⟩
  -- the call that fails is noted as well, and those behind it are not made
  · have hnoted : BatchHandler.perform (⟨h₁, done⟩ : Noted η) call = (.error e, ⟨h', done ++ [call]⟩) := by
      change ((BatchHandler.perform h₁ call).1, (⟨(BatchHandler.perform h₁ call).2, _⟩ : Noted η)) = _
      rw [hcall]
    rw [hsplit, hdone.performAll_failing hcall, (hdone.noted []).performAll_failing hnoted]
    exact ⟨_, _, h', _, rfl, rfl, rfl, hread,
      .inr ⟨done, call, rest, h₁, e, rfl, hdone, hcall, rfl, rfl, call.kind_failure e, rfl, rfl⟩⟩

/-- An event that a table holds. -/
def hostDown : Event := .raise (.ofNat 1) .epoch "host" "/Status" "down" .error

/-- A table with two entries of the event that it holds, and one in between of an event that it does not
hold. -/
def tableWithRepeat : EventTable :=
  let t := ((EventTable.empty EventTable.summaryName false).upsert hostDown).2
  ((t.enqueue (.ofNat 2) .epoch none).2.upsert hostDown).2

/-- A handler that fails at removed events, or at nothing. -/
def recorder (fails : Bool) : Recorder where
  calls := []
  ignoresPrepare := false
  failure := if fails then some ⟨.drop, .ofText .internal "full", 0⟩ else none

/-- The repeated event is handled once. If the other one cannot be removed, the batch is not completed, and no observer
hears of it. If all goes well, the numbers of all three entries are returned, and the observer is told that there are
still three of them. -/
theorem run_protocol_tableWithRepeat :
    (∃ d' r, (ofStore (.ofTable tableWithRepeat) [.log []]).run (⟨recorder true, []⟩ : Noted Recorder) 10 none =
        (.error (.ofText .processing "Failed to handle deleted event: Internal error: full"), d',
          ⟨r, [.prepare [hostDown], .handle hostDown, .drop (.ofNat 2)]⟩) ∧
      d'.store.table.queuedIds = [1, 2, 3] ∧ d'.lastSize = none ∧ d'.observers = [.log []]) ∧
    ∃ d' r, (ofStore (.ofTable tableWithRepeat) [.log []]).run (⟨recorder false, []⟩ : Noted Recorder) 10 none =
        (.ok [1, 2, 3], d', ⟨r, [.prepare [hostDown], .handle hostDown, .drop (.ofNat 2), .complete]⟩) ∧
      d'.store.table.queuedIds = [1, 2, 3] ∧ d'.lastSize = some 3 ∧
      d'.observers = [.log [⟨EventTable.summaryName, 3, 10⟩]] := by
  have hqueue : tableWithRepeat.queuedIds.Pairwise (· < ·) := by decide
  constructor
  · obtain ⟨-, -, outcome, d', r, made, hrun, hnoted, hstore, -, hends⟩ :=
      run_protocol (d := ofStore (.ofTable tableWithRepeat) [.log []]) rfl hqueue (recorder true) 10 none
    have houtcome : _ = outcome := congrArg Prod.fst hrun
    rcases hends with ⟨-, -, hok, -⟩ | ⟨done, call, rest, h₁, e, -, -, -, -, -, -, hsize, hobservers⟩
    · rw [← houtcome] at hok
      exact nomatch hok
    · have hmade : _ = made := congrArg (fun p => p.2.2.calls) hnoted
      refine ⟨d', r, ?_, ?_, hsize, hobservers⟩
      · rw [hnoted, ← houtcome, ← hmade]
        rfl
      · rw [hstore]
        rfl
  · obtain ⟨-, -, outcome, d', r, made, hrun, hnoted, hstore, -, hends⟩ :=
      run_protocol (d := ofStore (.ofTable tableWithRepeat) [.log []]) rfl hqueue (recorder false) 10 none
    have houtcome : _ = outcome := congrArg Prod.fst hrun
    rcases hends with ⟨-, hmade, hok, -, hsize, hobservers⟩ | ⟨done, call, rest, h₁, e, -, -, -, -, herror, -⟩
    · refine ⟨d', r, ?_, ?_, hsize, hobservers⟩
      · rw [hnoted, hok, hmade]
        rfl
      · rw [hstore]
        rfl
    · rw [← houtcome] at herror
      exact nomatch herror

end Drain

end EventCatalog
