import EventCatalog.Json.Value

/-!
# The tables of a TOML document

A document is a tree of tables. Every table may be defined only once: by a header of its own, or by
dotted keys; one that is only on the way to the header of another may still get its own header. An
array of tables grows by one table with each of its headers, and its last table is the one that
further headers reach into.
-/

namespace EventCatalog.Toml

/-- How a table has come about. -/
inductive Origin where
  /-- By its own header. -/
  | header
  /-- On the way to the header of a table inside it. -/
  | implied
  /-- By a dotted key. -/
  | dotted
deriving DecidableEq, Repr

/-- What stands under a key. -/
inductive Node where
  | value (v : Json)
  | table (origin : Origin) (fields : List (String × Node))
  | tables (items : List (List (String × Node)))

/-- The keys of a table with what stands under them. -/
abbrev Fields := List (String × Node)

mutual

/-- The value that a node stands for. -/
def Node.toJson : Node → Json
  | .value v => v
  | .table _ fields => .obj (fieldsToJson fields)
  | .tables items => .arr (itemsToJson items)

/-- The values of the keys of a table. -/
def fieldsToJson : List (String × Node) → List (String × Json)
  | [] => []
  | (k, n) :: rest => (k, n.toJson) :: fieldsToJson rest

/-- The values of an array of tables. -/
def itemsToJson : List (List (String × Node)) → List Json
  | [] => []
  | fields :: rest => .obj (fieldsToJson fields) :: itemsToJson rest

end

namespace Fields

/-- Puts a node in place of the one under a key. -/
def replace (key : String) (node : Node) (t : Fields) : Fields :=
  t.map fun f => if f.1 == key then (key, node) else f

/-- Changes the table that headers reach by a path; tables on the way that are not there are
made. -/
def inside (change : Fields → Option Fields) : List String → Fields → Option Fields
  | [], t => change t
  | k :: ks, t =>
    match t.lookup k with
    | none => (inside change ks []).map fun sub => t ++ [(k, .table .implied sub)]
    | some (.table origin sub) =>
      (inside change ks sub).map fun sub => t.replace k (.table origin sub)
    | some (.tables items) => do
      let last ← items.getLast?
      let last ← inside change ks last
      return t.replace k (.tables (items.dropLast ++ [last]))
    | some (.value _) => none

/-- Sets a key that is not yet there. -/
def add (key : String) (node : Node) (t : Fields) : Option Fields :=
  if (t.lookup key).isSome then none else some (t ++ [(key, node)])

/-- Sets a dotted key. It must not reach into a table that has a header, nor end in one that was not
made by dotted keys. -/
def assign (node : Node) : List String → Fields → Option Fields
  | [], _ => none
  | [k], t => t.add k node
  | k :: ks, t =>
    match t.lookup k with
    | none => (assign node ks []).map fun sub => t ++ [(k, .table .dotted sub)]
    | some (.table origin sub) =>
      if origin = .header || (origin = .implied && ks.length = 1) then none
      else (assign node ks sub).map fun sub => t.replace k (.table origin sub)
    | some (.tables items) =>
      if ks.length = 1 then none
      else do
        let last ← items.getLast?
        let last ← assign node ks last
        return t.replace k (.tables (items.dropLast ++ [last]))
    | some (.value _) => none

/-- Opens the table of a header. -/
def openTable (path : List String) (key : String) (t : Fields) : Option Fields :=
  t.inside (fun t =>
    match t.lookup key with
    | none => some (t ++ [(key, .table .header [])])
    | some (.table .implied sub) => some (t.replace key (.table .header sub))
    | some _ => none) path

/-- Opens the next table of an array of tables. -/
def openItem (path : List String) (key : String) (t : Fields) : Option Fields :=
  t.inside (fun t =>
    match t.lookup key with
    | none => some (t ++ [(key, .tables [[]])])
    | some (.tables items) => some (t.replace key (.tables (items ++ [[]])))
    | some _ => none) path

end Fields

end EventCatalog.Toml
