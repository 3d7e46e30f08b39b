import EventCatalog.Json.Decode

/-!
# Severities

How bad an event is, on a scale of six steps. The index holds a severity by its code, which is its
place on the scale.
-/

namespace EventCatalog

/-- Severities, from the least to the most severe. -/
inductive Severity where
  | clear
  | debug
  | info
  | warning
  | error
  | critical
deriving DecidableEq, Repr, Inhabited

namespace Severity

/-- All severities, the least severe first. -/
def all : List Severity := [clear, debug, info, warning, error, critical]

/-- The code held in the index. -/
def code : Severity → Nat
  | clear => 0
  | debug => 1
  | info => 2
  | warning => 3
  | error => 4
  | critical => 5

/-- The severity with a code. -/
def ofCode? (n : Int) : Option Severity := all.find? fun s => (s.code : Int) = n

/-- The written name. -/
def name : Severity → String
  | clear => "CLEAR"
  | debug => "DEBUG"
  | info => "INFO"
  | warning => "WARNING"
  | error => "ERROR"
  | critical => "CRITICAL"

/-- The severities by their names. -/
def named : List (String × Severity) := all.map fun s => (s.name, s)

/-- The severity with a name, whose ASCII letters may be of either case. -/
def ofName? (s : String) : Option Severity :=
  all.find? fun v => v.name = s.map Char.toUpper

instance : ToString Severity := ⟨name⟩

instance : Ord Severity := ⟨fun a b => compare a.code b.code⟩

instance : LE Severity := ⟨fun a b => a.code ≤ b.code⟩

instance (a b : Severity) : Decidable (a ≤ b) := inferInstanceAs (Decidable (a.code ≤ b.code))

/-- A severity as JSON: its name. -/
def toJson (s : Severity) : Json := .str s.name

/-- Decodes a severity. -/
def decoder : Json.Decoder Severity := Json.variant named

@[simp] theorem ofCode?_code (s : Severity) : ofCode? s.code = some s := by
  cases s <;> decide

/-- What has the code of a severity is read as that severity, and nothing else is. -/
theorem ofCode?_eq_some {n : Int} {s : Severity} : ofCode? n = some s ↔ n = s.code := by
  constructor
  · intro h
    have hfound := List.find?_some h
    exact (of_decide_eq_true hfound).symm
  · rintro rfl
    exact ofCode?_code s

end Severity

end EventCatalog
