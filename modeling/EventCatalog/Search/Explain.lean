import EventCatalog.Search.Filter
import EventCatalog.Search.Query

/-!
# Explaining clauses and queries

Clauses and queries as JSON, to be looked at by those who want to know what a filter asks for.
-/

namespace EventCatalog

/-- A clause as JSON: its kind with the field, and the values. -/
def Clause.toJson : Clause → Json
  | exact field value => .obj [("exact", .str field), ("value", .str value)]
  | exactSet field values combine => .obj [
      ("exact_set", .str field), ("values", .arr (values.map Json.str)), ("op", .str combine.name)]
  | pattern target glob => .obj [
      ("wildcard", .str target.keyword), ("pattern", .str glob),
      ("analyzed", Json.ofOption Json.str target.analyzed)]
  | path field glob => .obj [("path", .str field), ("pattern", .str glob)]
  | range field least greatest => .obj [
      ("range", .str field), ("min", Json.ofOption Json.int least),
      ("max", Json.ofOption Json.int greatest)]
  | codes field ns => .obj [("enum_set", .str field), ("codes", .arr (ns.map Json.int))]

/-- The name of a way to count. -/
def Occur.name : Occur → String
  | must => "must"
  | should => "should"

namespace Query

mutual

/-- A query as JSON. -/
def toJson : Query → Json
  | all => .str "all"
  | term field value => .obj [("term", .arr [.str field, value.toJson])]
  | phrase field terms => .obj [("phrase", .arr (terms.map fun t => .arr [.str field, .str t.2]))]
  | regex field r => .obj [("regex", .arr [.str field, .str r.render])]
  | range field least greatest => .obj [("range", .arr [.str field,
      Json.ofOption Json.int least, Json.ofOption Json.int greatest])]
  | combined parts => .obj [("bool", .arr (partsToJson parts))]

/-- The parts of a query as JSON. -/
def partsToJson : List (Occur × Query) → List Json
  | [] => []
  | (occur, q) :: rest => .arr [.str occur.name, q.toJson] :: partsToJson rest

end

end Query

end EventCatalog
