import EventCatalog.Queue.Batch

/-!
# A handler that records its calls

A `Recorder` does nothing but note what it is asked to do. It can be made to fail at a call, which
shows what a drain makes of that.
-/

namespace EventCatalog

/-- The kinds of calls. -/
inductive HandlerCall.Kind where
  | prepare
  | handle
  | drop
  | complete
deriving DecidableEq, Repr, Inhabited

/-- The kind of a call. -/
def HandlerCall.kind : HandlerCall → HandlerCall.Kind
  | .prepare _ => .prepare
  | .handle _ => .handle
  | .drop _ => .drop
  | .complete => .complete

/-- A call as JSON: its kind, and what it is about. -/
def HandlerCall.toJson : HandlerCall → Json
  | .prepare events => .arr [.str "prepare", .int events.length]
  | .handle e => .arr [.str "handle", e.uuid.toJson, .str e.summary]
  | .drop uuid => .arr [.str "deleted", uuid.toJson]
  | .complete => .arr [.str "complete"]

/-- A call at which a recorder fails. -/
structure Recorder.Failure where
  kind : HandlerCall.Kind
  error : ServiceError
  /-- Which of the changed events it fails at, if at one of them; the first is 0. -/
  nth : Nat
deriving DecidableEq, Repr, Inhabited

/-- A handler that notes its calls. -/
structure Recorder where
  /-- The calls so far, also the one at which it failed. -/
  calls : List HandlerCall
  /-- Whether it takes no interest in being told all events at once. -/
  ignoresPrepare : Bool
  failure : Option Recorder.Failure
deriving Inhabited, Repr

namespace Recorder

/-- How many changed events were taken up. -/
def handled (r : Recorder) : Nat := r.calls.countP fun c => c.kind == .handle

/-- The error that a call meets, if any. -/
def errorAt (r : Recorder) (kind : HandlerCall.Kind) : Option ServiceError :=
  (r.failure.filter fun f => f.kind == kind && (kind != .handle || f.nth == r.handled)).map
    Failure.error

instance : BatchHandler Recorder where
  perform r call :=
    if call.kind == .prepare && r.ignoresPrepare then (.ok (), r)
    else
      let noted := { r with calls := r.calls ++ [call] }
      match r.errorAt call.kind with
      | some e => (.error e, noted)
      | none => (.ok (), noted)

end Recorder

end EventCatalog
