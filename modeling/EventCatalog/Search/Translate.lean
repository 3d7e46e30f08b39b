import EventCatalog.Pattern.Automaton
import EventCatalog.Pattern.Glob
import EventCatalog.Search.Filter
import EventCatalog.Search.Query
import EventCatalog.Text.Numeral

/-!
# From filters to queries

Each clause of a filter becomes a query over a schema, or nothing when it constrains nothing; the
clauses together become one query that selects what all of them select.

A text pattern takes one of three ways. A glob is matched against the keyword as a whole. A plain
pattern is analyzed like the text, and its tokens are looked up as a term or a phrase. If that
leaves no token, the keyword has to contain the pattern.
-/

namespace EventCatalog.Query

/-- The outcome of a step that the catalog may refuse. -/
abbrev Build (α : Type) := Except CatalogError α

/-- The field of that name. -/
def fieldNamed (schema : Schema) (name : String) : Build Field :=
  match schema.field? name with
  | some f => .ok f
  | none => .error (.ofText .invalidArgument ("unknown field: " ++ name))

/-- The term for a literal of a field. -/
def exactTerm (schema : Schema) (name value : String) : Build Query := do
  let f ← fieldNamed schema name
  if !f.isIndexed then
    throw (.ofText .invalidArgument ("field is not searchable: " ++ name))
  match f.type with
  | .integer =>
    match Text.int64Of? value with
    | some n => return .term name (.int n.toInt)
    | none =>
      throw (.ofText .invalidArgument
        ("expected an integer for " ++ name ++ ", got " ++ Text.quoted value))
  | .text => return .term name (.text value)
  | other =>
    throw (.ofText .queryBuilding ("unsupported field type " ++ other.name ++ " for " ++ name))

/-- Several queries as one: none constrains nothing, one stands for itself. -/
def combine (occur : Occur) : List Query → Option Query
  | [] => none
  | [q] => some q
  | qs => some (.combined (qs.map fun q => (occur, q)))

/-- The query of an expression over the keywords of a field. -/
def ofRegex (field : String) (r : Regex) : Build Query :=
  if r.isTooLarge then .error ⟨.queryBuilding, .badPattern r.render⟩ else .ok (.regex field r)

/-- The tokens of a pattern as the field's analyzer sees them. -/
def analyze (f : Field) (pattern : List Char) : Build (List (Nat × String)) :=
  match f.type, f.indexing with
  | .text, .analyzed a | .json, .analyzed a =>
    .ok ((a.tokens pattern).map fun t => (t.position, String.ofList t.text))
  | .text, _ | .json, _ =>
    .error (.ofText .engine ("No indexing options set for field " ++ f.name))
  | _, _ => .error (.ofText .engine (f.name ++ " is not a text field."))

/-- The query of a text pattern. -/
def ofPattern (schema : Schema) (target : PatternTarget) (pattern : String) :
    Build (Option Query) := do
  let p := Glob.normalize pattern
  if p.isEmpty then return none
  let _ ← fieldNamed schema target.keyword
  if Glob.hasWildcard p then return some (← ofRegex target.keyword (Glob.toRegex p))
  match target.analyzed with
  | none => return some (.term target.keyword (.text (String.ofList p)))
  | some name =>
    let f ← fieldNamed schema name
    match ← analyze f p with
    | [] => return some (← ofRegex target.keyword (Regex.containing p))
    | [(_, s)] => return some (.term name (.text s))
    | terms => return some (.phrase name terms)

/-- The query of a path pattern. -/
def ofPath (schema : Schema) (name pattern : String) : Build (Option Query) := do
  let p := Glob.normalize pattern
  if p.isEmpty then return none
  let _ ← fieldNamed schema name
  let p := Glob.completePath p
  if Glob.hasWildcard p then return some (← ofRegex name (Glob.toRegex p))
  return some (.term name (.text (String.ofList p)))

/-- The query of a clause; `none` when the clause constrains nothing. -/
def ofClause (schema : Schema) : Clause → Build (Option Query)
  | .exact field value => do return some (← exactTerm schema field value)
  | .exactSet field values op => do
    let terms ← values.mapM (exactTerm schema field)
    return combine (match op with | .all => .must | .any => .should) terms
  | .pattern target pattern => ofPattern schema target pattern
  | .path field pattern => ofPath schema field pattern
  | .range field least greatest => do
    let _ ← fieldNamed schema field
    if least.isNone && greatest.isNone then return none
    return some (.range field least greatest)
  | .codes field codes => do
    let _ ← fieldNamed schema field
    return combine .should (codes.map fun n => .term field (.int n))

/-- The query that selects what all clauses select. -/
def ofClauses (schema : Schema) (clauses : List Clause) : Build Query := do
  let queries ← clauses.mapM (ofClause schema)
  return (combine .must (queries.filterMap id)).getD .all

/-- The query of a filter; without a filter, every document is selected. -/
def ofFilter (schema : Schema) : Option Filter → Build Query
  | some f => ofClauses schema f.clauses
  | none => .ok .all

end EventCatalog.Query
