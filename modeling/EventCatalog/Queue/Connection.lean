import EventCatalog.Error
import EventCatalog.Queue.Table

/-!
# The connection to a table

The queue is read and emptied over a connection to the system of record. While an outage lasts, a
kind of call fails and leaves the table as it is.
-/

namespace EventCatalog

/-- What is asked of the system of record. -/
inductive StoreCall where
  | fetch
  | length
  | delete
deriving DecidableEq, Repr, Inhabited

/-- A number of calls of one kind that will fail. -/
structure Outage where
  call : StoreCall
  times : Nat
  message : String
deriving DecidableEq, Repr, Inhabited

/-- A table as it can be reached. -/
structure Connection where
  table : EventTable
  outage : Option Outage
deriving Inhabited, Repr

namespace Connection

/-- A connection on which no call fails. -/
def ofTable (t : EventTable) : Connection := ⟨t, none⟩

/-- The outage that a call meets, if any. -/
def outageOf (c : Connection) (call : StoreCall) : Option Outage :=
  c.outage.filter fun o => o.call == call && o.times != 0

/-- The number of calls that will fail. -/
def failuresLeft (c : Connection) : Nat := (c.outage.map Outage.times).getD 0

/-- Makes a call: either it meets an outage, which then lasts one call less, or it is done. -/
def request {α : Type} (c : Connection) (call : StoreCall) (f : EventTable → α × EventTable) :
    Except ServiceError α × Connection :=
  match c.outageOf call with
  | some o =>
    (.error (.ofText .database o.message),
      { c with outage := some { o with times := o.times - 1 } })
  | none =>
    let p := f c.table
    (.ok p.1, { c with table := p.2 })

/-- Fetches the first entries of the queue. -/
def fetch (c : Connection) (limit : Nat) (latest : Option Instant) :
    Except ServiceError (List QueueRow) × Connection :=
  c.request .fetch fun t => (t.fetch limit latest, t)

/-- Asks for the number of entries in the queue. -/
def pending (c : Connection) : Except ServiceError Nat × Connection :=
  c.request .length fun t => (t.pending, t)

/-- Deletes entries of the queue. -/
def deleteEntries (c : Connection) (ids : List Int) : Except ServiceError Nat × Connection :=
  c.request .delete fun t => t.deleteEntries ids

/-- Without an outage every call is done. -/
theorem request_ofTable {α : Type} (t : EventTable) (call : StoreCall)
    (f : EventTable → α × EventTable) :
    (ofTable t).request call f = (.ok (f t).1, ofTable (f t).2) := rfl

end Connection

end EventCatalog
