import EventCatalog.Json.Decode

/-!
# Statuses

Where an event stands in its life. New and acknowledged events are *open*: they count when the
severities of an element are rolled up.
-/

namespace EventCatalog

/-- The status of an event. -/
inductive Status where
  | new
  | acknowledged
  | suppressed
  | closed
  | cleared
  | dropped
  | aged
deriving DecidableEq, Repr, Inhabited

namespace Status

/-- All statuses, in the order of their codes. -/
def all : List Status := [new, acknowledged, suppressed, closed, cleared, dropped, aged]

/-- The code held in the index. -/
def code : Status → Nat
  | new => 0
  | acknowledged => 1
  | suppressed => 2
  | closed => 3
  | cleared => 4
  | dropped => 5
  | aged => 6

/-- The status with a code. -/
def ofCode? (n : Int) : Option Status := all.find? fun s => (s.code : Int) = n

/-- The written name. -/
def name : Status → String
  | new => "NEW"
  | acknowledged => "ACKNOWLEDGED"
  | suppressed => "SUPPRESSED"
  | closed => "CLOSED"
  | cleared => "CLEARED"
  | dropped => "DROPPED"
  | aged => "AGED"

/-- The statuses by their names. -/
def named : List (String × Status) := all.map fun s => (s.name, s)

/-- The status with a name, whose ASCII letters may be of either case. -/
def ofName? (s : String) : Option Status :=
  all.find? fun v => v.name = s.map Char.toUpper

instance : ToString Status := ⟨name⟩

/-- Whether an event of this status is still active. -/
def isOpen : Status → Bool
  | new | acknowledged => true
  | _ => false

/-- The statuses of active events. -/
def openStatuses : List Status := [new, acknowledged]

/-- A status as JSON: its name. -/
def toJson (s : Status) : Json := .str s.name

/-- Decodes a status. -/
def decoder : Json.Decoder Status := Json.variant named

@[simp] theorem ofCode?_code (s : Status) : ofCode? s.code = some s := by
  cases s <;> decide

theorem isOpen_iff_mem (s : Status) : s.isOpen = true ↔ s ∈ openStatuses := by
  cases s <;> decide

end Status

end EventCatalog
