import EventCatalog.Json.Value
import EventCatalog.Text.LowerCase

/-!
# Layers of configuration

Configuration comes in layers, each a tree of named values. A stronger layer is merged into a weaker
one: where both have a table the tables are merged, and everywhere else the stronger value stands.
Names count in lower case.

`Layer.merge` does this for whole values, `Layer.assign` for a value at a path of names.
-/

namespace EventCatalog.Layer

/-- The fields of a table; what is no table has none. -/
def fieldsOf : Option Json → List (String × Json)
  | some (.obj fields) => fields
  | _ => []

/-- Puts a value under a name in place of the one that is there. -/
def put (name : String) (v : Json) : List (String × Json) → List (String × Json)
  | [] => [(name, v)]
  | (k, w) :: rest => if k = name then (name, v) :: rest else (k, w) :: put name v rest

mutual

/-- A value merged into the one that stands in its place. An empty table has nothing to merge. -/
def merge : Option Json → Json → Json
  | old, .obj [] => old.getD (.obj [])
  | old, .obj fields => .obj (mergeFields (fieldsOf old) fields)
  | _, v => v

/-- The fields of a table merged into those of another. -/
def mergeFields : List (String × Json) → List (String × Json) → List (String × Json)
  | old, [] => old
  | old, (name, v) :: rest =>
    let name := Text.lower name
    mergeFields (put name (merge (old.lookup name) v) old) rest

end

/-- Merges a value into the place that a path leads to. What stands in the way and is no table gives
way to one. -/
def assign (v : Json) : List String → Option Json → Json
  | [], old => merge old v
  | name :: path, old =>
    let name := Text.lower name
    let fields := fieldsOf old
    .obj (put name (assign v path (fields.lookup name)) fields)

/-- Whether a character can stand in a name of a path. -/
def isNameChar (c : Char) : Bool := c.isAlphanum || c == ' ' || c == '_' || c == '-'

/-- The parts of a text between dots. -/
def parts : List Char → List (List Char)
  | [] => [[]]
  | c :: rest =>
    if c = '.' then [] :: parts rest
    else match parts rest with
      | part :: more => (c :: part) :: more
      | [] => [[c]]

/-- The path that a key stands for: names with dots between them. Any other key is one name. -/
def path (key : String) : List String :=
  let names := parts key.toList
  if names.all fun name => !name.isEmpty && name.all isNameChar then names.map String.ofList
  else [key]

/-- A layer over others: its values by the paths of their keys, in order. -/
def mergeEntries (weaker : Json) (layer : List (String × Json)) : Json :=
  layer.foldl (fun merged f => assign f.2 (path f.1) (some merged)) weaker

end EventCatalog.Layer
