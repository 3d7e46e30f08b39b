/-!
# JSON values

The documents the catalog reads and writes. An object keeps its fields in the order of the text;
`Json.canonical` puts them into the order of their names, each name once.
-/

namespace EventCatalog

/-- A JSON value. Whole numbers within 64 bits are exact, all others are binary floating point.
`malformed` stands where a text stops being JSON; a value read from a well-formed text has none. -/
inductive Json where
  | null
  | bool (b : Bool)
  | int (n : Int)
  | real (x : Float)
  | str (s : String)
  | arr (items : List Json)
  | obj (fields : List (String × Json))
  | malformed
deriving Inhabited, Repr

namespace Json

/-- Puts a field into fields that are sorted by name, over one of the same name. -/
def insertField (name : String) (value : Json) : List (String × Json) → List (String × Json)
  | [] => [(name, value)]
  | (k, v) :: rest =>
    if name < k then (name, value) :: (k, v) :: rest
    else if name = k then (name, value) :: rest
    else (k, v) :: insertField name value rest

/-- Sorts fields by name; of two with one name the later counts. -/
def sortFields (fields : List (String × Json)) : List (String × Json) :=
  fields.foldl (fun sorted f => insertField f.1 f.2 sorted) []

mutual

/-- The value with the fields of every object sorted, each name once. -/
def canonical : Json → Json
  | .arr items => .arr (canonicalItems items)
  | .obj fields => .obj (sortFields (canonicalFields fields))
  | v => v

/-- The canonical items of an array. -/
def canonicalItems : List Json → List Json
  | [] => []
  | v :: rest => canonical v :: canonicalItems rest

/-- Fields in their order with canonical values. -/
def canonicalFields : List (String × Json) → List (String × Json)
  | [] => []
  | (k, v) :: rest => (k, canonical v) :: canonicalFields rest

end

mutual

/-- Whether the text of this value broke off inside it. -/
def isBroken : Json → Bool
  | .malformed => true
  | .arr items => anyBroken items
  | .obj fields => anyFieldBroken fields
  | _ => false

/-- Whether an item broke off. -/
def anyBroken : List Json → Bool
  | [] => false
  | v :: rest => isBroken v || anyBroken rest

/-- Whether the value of a field broke off. -/
def anyFieldBroken : List (String × Json) → Bool
  | [] => false
  | (_, v) :: rest => isBroken v || anyFieldBroken rest

end

/-- The field of that name, if the value is an object that has one. -/
def field? (name : String) : Json → Option Json
  | .obj fields => fields.lookup name
  | _ => none

/-- The field of that name; an absent one counts as null. -/
def get (v : Json) (name : String) : Json := (v.field? name).getD .null

/-- The text of a string value. -/
def str? : Json → Option String
  | .str s => some s
  | _ => none

/-- The number of a whole number. -/
def int? : Json → Option Int
  | .int n => some n
  | _ => none

/-- The truth value of a boolean. -/
def bool? : Json → Option Bool
  | .bool b => some b
  | _ => none

/-- The items of an array. -/
def items? : Json → Option (List Json)
  | .arr items => some items
  | _ => none

/-- The fields of an object. -/
def fields? : Json → Option (List (String × Json))
  | .obj fields => some fields
  | _ => none

/-- A value or null. -/
def ofOption {α : Type} (f : α → Json) : Option α → Json
  | none => .null
  | some a => f a

end Json

end EventCatalog
