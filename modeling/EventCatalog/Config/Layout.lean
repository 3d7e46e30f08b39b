import EventCatalog.Decimal.Notation
import EventCatalog.Decimal.Read
import EventCatalog.Json.Value
import EventCatalog.Text.LowerCase

/-!
# Layouts

Files and variables do not always give a value in the type that it must have: a variable may give a
number as a text, a file a truth value as a number. A `Layout` says of every setting which type it
has, and `Layout.adapt` converts what can be converted. All else is left as it is, for the decoder
to refuse.
-/

namespace EventCatalog

/-- The type of a setting, or of a record of them. -/
inductive Layout where
  | text
  | boolean
  /-- A number of 64 bits with a sign. -/
  | integer
  /-- A number of 64 bits. -/
  | natural
  /-- One of a closed set of names. -/
  | choice (names : List String)
  | record (fields : List (String × Layout))

namespace Layout

/-- A value as a text. -/
def toText : Json → Json
  | .bool b => .str (if b then "true" else "false")
  | .int n => .str (toString n)
  | .real x => .str (Decimal.plain x)
  | v => v

/-- A value as a truth value: numbers are true unless they are zero. -/
def toBoolean : Json → Json
  | .int n => .bool (n != 0)
  | .real x => .bool (x != 0)
  | .str s =>
    let word := Text.lower s
    if ["1", "true", "on", "yes"].contains word then .bool true
    else if ["0", "false", "off", "no"].contains word then .bool false
    else .str s
  | v => v

/-- A value as a number: one with a fraction is rounded, and `ofText?` reads a text that is not the
word for a truth value. -/
def toNumber (ofFloat : Float → Int) (ofText? : String → Option Int) : Json → Json
  | .bool b => .int (if b then 1 else 0)
  | .real x => .int (ofFloat x.round)
  | .str s =>
    let word := Text.lower s
    if ["true", "on", "yes"].contains word then .int 1
    else if ["false", "off", "no"].contains word then .int 0
    else ((ofText? s).map Json.int).getD (.str s)
  | v => v

/-- A value as one of the names, whose case does not matter. -/
def toChoice (names : List String) (v : Json) : Json :=
  let given := match v with
    | .str s => some s
    | .obj [(name, _)] => some name
    | _ => none
  (given.bind fun s => names.find? fun name => Text.lower name == Text.lower s).elim v .str

mutual

/-- Converts a value, and the values inside it, to the types that they must have. A list gives the
fields of a record in their order; what it has beyond them does not count. -/
def adapt : Layout → Json → Json
  | text, v => toText v
  | boolean, v => toBoolean v
  | integer, v =>
    toNumber (fun x => x.toInt64.toInt) (fun s => (Text.int64Of? s).map Int64.toInt) v
  | natural, v =>
    toNumber (fun x => x.toUInt64.toNat) (fun s => (Text.natBelow? UInt64.size s).map Int.ofNat) v
  | choice names, v => toChoice names v
  | record layouts, .obj fields => .obj (adaptFields layouts fields)
  | record layouts, .arr items => .arr (adaptItems layouts items)
  | record _, v => v

/-- Converts the fields of a record. -/
def adaptFields : List (String × Layout) → List (String × Json) → List (String × Json)
  | [], fields => fields
  | (name, layout) :: rest, fields =>
    (adaptFields rest fields).map fun f => if f.1 = name then (name, layout.adapt f.2) else f

/-- Converts the items of a list, each with the layout of its field. -/
def adaptItems : List (String × Layout) → List Json → List Json
  | (_, layout) :: rest, v :: items => layout.adapt v :: adaptItems rest items
  | _, _ => []

end

end Layout

end EventCatalog
