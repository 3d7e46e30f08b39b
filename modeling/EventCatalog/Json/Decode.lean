import EventCatalog.Decimal.Notation
import EventCatalog.Json.Parser
import EventCatalog.Text.Quoted

/-!
# Decoding JSON

A decoder turns a value into a value of the domain or says why it cannot. Records are described
once, field by field, by `Json.Record`; the description accepts an object with the fields in any
order, in which unknown fields are passed over, or an array with the fields in the declared order.

Of several faults the one that stands first in the text is reported; a missing field counts as
standing at the end.
-/

namespace EventCatalog

/-- Why a value could not be decoded. -/
inductive DecodeError where
  /-- A record lacks a field that it must have. -/
  | missingField (name : String)
  /-- A name is none of those known. -/
  | unknownVariant (given : String) (known : List String)
  /-- A value of another type was expected. -/
  | invalidType (found expected : String)
  /-- A value of the right type is out of range. -/
  | invalidValue (found expected : String)
  /-- A number names no severity. -/
  | unknownSeverityCode (code : Int)
  /-- A stored document holds no event. -/
  | noStoredEvent
  /-- A stored setting does not hold what its name stands for. -/
  | malformedSetting (name : String) (reason : String)
  /-- The text is not what it should be: no JSON, no time, no identifier, a wrong length. -/
  | unreadable (what : String)
deriving Repr, DecidableEq, Inhabited

namespace DecodeError

/-- The known names of a closed set: two are joined by "or", more are listed. -/
def oneOf : List String → String
  | [] => "there are no variants"
  | [a] => "expected " ++ ticked a
  | [a, b] => "expected " ++ ticked a ++ " or " ++ ticked b
  | names => "expected one of " ++ String.intercalate ", " (names.map ticked)
where
  ticked (s : String) : String := "`" ++ s ++ "`"

/-- What the error says. -/
def message : DecodeError → String
  | missingField name => "missing field `" ++ name ++ "`"
  | unknownVariant given known => "unknown variant `" ++ given ++ "`, " ++ oneOf known
  | invalidType found expected => "invalid type: " ++ found ++ ", expected " ++ expected
  | invalidValue found expected => "invalid value: " ++ found ++ ", expected " ++ expected
  | unknownSeverityCode code => "unknown severity code " ++ toString code
  | noStoredEvent => "document has no stored event"
  | malformedSetting name reason => "malformed value for " ++ name ++ ": " ++ reason
  | unreadable what => what

end DecodeError

namespace Json

/-- A reader of values of the domain. -/
abbrev Decoder (α : Type) := Json → Except DecodeError α

/-- What stands in the text, as messages name it. -/
def described : Json → String
  | null => "null"
  | bool b => "boolean `" ++ (if b then "true" else "false") ++ "`"
  | int n => "integer `" ++ toString n ++ "`"
  | real x => "floating point `" ++ Decimal.message x ++ "`"
  | str s => "string " ++ Text.quoted s
  | arr _ => "sequence"
  | obj _ => "map"
  | malformed => "nothing"

/-- The complaint that something else was expected. -/
def wrongType {α : Type} (expected : String) : Decoder α
  | malformed => .error (.unreadable "invalid JSON")
  | v => .error (.invalidType v.described expected)

/-! ### Plain values -/

/-- A text. -/
def text : Decoder String
  | str s => .ok s
  | v => wrongType "a string" v

/-- The path of a file or directory. -/
def path : Decoder String
  | str s => .ok s
  | v => wrongType "path string" v

/-- A truth value. -/
def boolean : Decoder Bool
  | bool b => .ok b
  | v => wrongType "a boolean" v

/-- A whole number from `least` to `greatest`; messages call the range by its name. -/
def integer (range : String) (least greatest : Int) : Decoder Int
  | int n =>
    if least ≤ n && n ≤ greatest then .ok n
    else .error (.invalidValue (described (int n)) range)
  | v => wrongType range v

/-- An integer that fits into 64 bits with a sign. -/
def signed64 : Decoder Int := integer "i64" Int64.minValue.toInt Int64.maxValue.toInt

/-- A number of 64 bits with a sign. -/
def int64 : Decoder Int64 := fun v => (signed64 v).map Int64.ofInt

/-- A number of 64 bits. -/
def nat64 : Decoder Nat := fun v =>
  (integer "u64" 0 (UInt64.size - 1) v).map Int.toNat

/-- A size. -/
def size : Decoder Nat := fun v =>
  (integer "usize" 0 (UInt64.size - 1) v).map Int.toNat

/-- A number of 32 bits. -/
def nat32 : Decoder UInt32 := fun v =>
  (integer "u32" 0 (UInt32.size - 1) v).map fun n => n.toNat.toUInt32

/-- A value or nothing, written as null. -/
def optional {α : Type} (d : Decoder α) : Decoder (Option α)
  | null => .ok none
  | v => (d v).map some

/-- A list. -/
def list {α : Type} (d : Decoder α) : Decoder (List α)
  | arr items => items.mapM d
  | v => wrongType "a sequence" v

/-- One of a closed set of names, alone or as the name of an object's only field, whose value is
then null. -/
def variant {α : Type} (known : List (String × α)) : Decoder α := fun v =>
  let named := fun (s : String) =>
    match known.lookup s with
    | some a => Except.ok a
    | none => .error (.unknownVariant s (known.map Prod.fst))
  match v with
  | str s => named s
  | obj [(k, null)] => named k
  | obj [(k, w)] => do
    let _ ← named k
    wrongType "unit" w
  | obj _ => .error (.invalidValue "map" "map with a single key")
  | v => wrongType "string or map" v

/-! ### Records -/

/-- One field of a record: its name, a test of its value, and whether it has a default that also
stands for it when an array ends before it. -/
structure Slot where
  name : String
  check : Decoder Unit
  defaulted : Bool

/-- The description of a record: its fields in the declared order, and how the record is made from
the values given for them. -/
structure Record (α : Type) where
  slots : List Slot
  build : (String → Option Json) → Except DecodeError α

namespace Record

/-- A record without fields. -/
def pure {α : Type} (a : α) : Record α := ⟨[], fun _ => .ok a⟩

/-- A record with the fields of both, those of the first in front. -/
def and {α β : Type} (f : Record (α → β)) (x : Record α) : Record β where
  slots := f.slots ++ x.slots
  build given := do
    let g ← f.build given
    let a ← x.build given
    return g a

instance : Functor Record where
  map f r := ⟨r.slots, fun given => (r.build given).map f⟩

instance : Seq Record where
  seq f x := f.and (x ())

/-- A field that must be given. -/
def required {α : Type} (name : String) (d : Decoder α) : Record α where
  slots := [⟨name, fun v => (d v).map fun _ => (), false⟩]
  build given := match given name with
    | some v => d v
    | none => .error (.missingField name)

/-- A field that may be left out. -/
def optional {α : Type} (name : String) (d : Decoder α) : Record (Option α) where
  slots := [⟨name, fun v => (Json.optional d v).map fun _ => (), false⟩]
  build given := match given name with
    | some v => Json.optional d v
    | none => .ok none

/-- A field with a default. -/
def defaulted {α : Type} (name : String) (d : Decoder α) (default : α) : Record α where
  slots := [⟨name, fun v => (d v).map fun _ => (), true⟩]
  build given := match given name with
    | some v => d v
    | none => .ok default

/-- Tests the fields of an object in the order of the text. A known field may stand there only
once; an unknown one only has to be JSON. -/
def checkFields (slots : List Slot) : List String → List (String × Json) → Except DecodeError Unit
  | _, [] => .ok ()
  | seen, (name, v) :: rest =>
    match slots.find? (·.name == name) with
    | some slot =>
      if seen.contains name then .error (.unreadable ("duplicate field `" ++ name ++ "`"))
      else do
        slot.check v
        checkFields slots (name :: seen) rest
    | none =>
      if v.isBroken then .error (.unreadable "invalid JSON") else checkFields slots seen rest

/-- Tests the items of an array against the fields in their order. -/
def checkItems : List Slot → List Json → Except DecodeError Unit
  | [], [] => .ok ()
  | [], _ :: _ => .error (.unreadable "invalid length")
  | slot :: slots, v :: rest => do
    slot.check v
    checkItems slots rest
  | slot :: slots, [] =>
    if slot.defaulted then checkItems slots [] else .error (.unreadable "invalid length")

/-- Reads a record; `expected` is what a message says was expected. -/
def decode {α : Type} (r : Record α) (expected : String) : Decoder α
  | obj fields => do
    checkFields r.slots [] fields
    r.build fun name => List.lookup name fields
  | arr items => do
    checkItems r.slots items
    r.build fun name => List.lookup name ((r.slots.map Slot.name).zip items)
  | v => wrongType expected v

end Record

/-- Decodes a text. A fault of the text is reported unless a complaint of the decoder stands before
it. -/
def decodeText {α : Type} (d : Decoder α) (s : String) : Except DecodeError α :=
  let p := read s
  match d p.1 with
  | .ok a => if p.2 then .ok a else .error (.unreadable "invalid JSON")
  | .error (.invalidType _ "string or map") => .error (.unreadable "expected value")
  | .error (.invalidValue "map" _) => .error (.unreadable "expected value")
  | .error e => .error e

/-- Decodes a value, the fields of every object taken by name. -/
def decodeValue {α : Type} (d : Decoder α) (v : Json) : Except DecodeError α := d v.canonical

end Json

end EventCatalog
