import EventCatalog.Pattern.Regex
import EventCatalog.Search.Document

/-!
# Queries

A query selects documents of an index. `Query.isRunnable` says whether the index can run it at
all, `Query.selects` which documents it selects: those whose indexed tokens and numbers meet it.
-/

namespace EventCatalog

/-- How a part of a query counts. -/
inductive Occur where
  /-- The part has to be met. -/
  | must
  /-- One such part has to be met, unless others have to be met anyway. -/
  | should
deriving DecidableEq, Repr, Inhabited

/-- A selection of documents. -/
inductive Query where
  /-- Every document. -/
  | all
  /-- The field has the token or the number. -/
  | term (field : String) (value : FieldValue)
  /-- The field has the tokens at these distances from each other. -/
  | phrase (field : String) (terms : List (Nat × String))
  /-- A token of the field matches the expression. -/
  | regex (field : String) (pattern : Regex)
  /-- A number of the field lies in the interval; an end that is not given is open. -/
  | range (field : String) (least greatest : Option Int)
  /-- The parts combined. -/
  | combined (parts : List (Occur × Query))
deriving Repr, Inhabited

/-- Tokens of more bytes than this are not indexed. -/
def maxTokenBytes : Nat := 65530

namespace Document

/-- The tokens of the values of a field, with their positions. Each value continues at a distance of
one behind the end of the value before it, which is at `start`. -/
def tokensFrom (analyzer : Analyzer) (start : Nat) : List String → List (Nat × List Char)
  | [] => []
  | s :: rest =>
    let tokens := (analyzer.tokens s.toList).filter fun t =>
      Analysis.byteLength t.text ≤ maxTokenBytes
    let stop := tokens.foldl (fun stop t => max stop (start + t.position + 1)) start
    tokens.map (fun t => (start + t.position, t.text)) ++ tokensFrom analyzer (stop + 1) rest

/-- The tokens of a field. -/
def tokens (d : Document) (analyzer : Analyzer) (field : String) : List (Nat × List Char) :=
  tokensFrom analyzer 0 (d.texts field)

/-- Whether tokens contain the terms at their distances. -/
def hasPhrase (tokens : List (Nat × List Char)) : List (Nat × String) → Bool
  | [] => true
  | (first, term) :: rest =>
    tokens.any fun t => t.2 == term.toList &&
      rest.all fun r => tokens.any fun u => u.1 + first == t.1 + r.1 && u.2 == r.2.toList

end Document

namespace Query

/-- Whether the field is of the given type and can be looked up. -/
def isSearchable (schema : Schema) (field : String) : Bool :=
  match schema.field? field with
  | some f => f.isIndexed
  | none => false

mutual

/-- Whether an index with the schema can run the query: terms need an indexed field, intervals an
integer field. -/
def isRunnable (schema : Schema) : Query → Bool
  | all => true
  | term field _ => isSearchable schema field
  | phrase field _ => isSearchable schema field
  | regex _ _ => true
  | range field _ _ =>
    match schema.field? field with
    | some f => f.type == .integer
    | none => false
  | combined parts => areRunnable schema parts

/-- Whether an index with the schema can run all parts. -/
def areRunnable (schema : Schema) : List (Occur × Query) → Bool
  | [] => true
  | (_, q) :: rest => isRunnable schema q && areRunnable schema rest

end

/-- Whether a number lies in an interval. -/
def inInterval (least greatest : Option Int) (n : Int) : Bool :=
  least.all (· ≤ n) && greatest.all (n ≤ ·)

/-- The tokens of a text field of a document; none if the field is of another type or not
analyzed. -/
def textTokens (schema : Schema) (d : Document) (field : String) : List (Nat × List Char) :=
  match schema.field? field with
  | some ⟨_, .text, .analyzed analyzer, _, _⟩ => d.tokens analyzer field
  | _ => []

/-- The numbers of an integer field of a document. -/
def numbers (schema : Schema) (d : Document) (field : String) (usable : Field → Bool) : List Int :=
  match schema.field? field with
  | some f => if f.type == .integer && usable f then d.ints field else []
  | none => []

mutual

/-- Whether the query selects the document. -/
def selects (schema : Schema) (d : Document) : Query → Bool
  | all => true
  | term field (.text s) => (textTokens schema d field).any fun t => t.2 == s.toList
  | term field (.int n) => (numbers schema d field Field.isIndexed).contains n
  | phrase field terms => Document.hasPhrase (textTokens schema d field) terms
  | regex field pattern => (textTokens schema d field).any fun t => pattern.test t.2
  | range field least greatest =>
    (numbers schema d field fun f => f.isIndexed || f.fast).any (inInterval least greatest)
  | combined parts =>
    allRequired schema d parts && (hasRequired parts || anyOptional schema d parts)

/-- Whether all parts that have to be met are met. -/
def allRequired (schema : Schema) (d : Document) : List (Occur × Query) → Bool
  | [] => true
  | (.must, q) :: rest => selects schema d q && allRequired schema d rest
  | (.should, _) :: rest => allRequired schema d rest

/-- Whether a part is met that need not be met by itself. -/
def anyOptional (schema : Schema) (d : Document) : List (Occur × Query) → Bool
  | [] => false
  | (.should, q) :: rest => selects schema d q || anyOptional schema d rest
  | (.must, _) :: rest => anyOptional schema d rest

/-- Whether there are parts that have to be met. -/
def hasRequired : List (Occur × Query) → Bool
  | [] => false
  | (.must, _) :: _ => true
  | (.should, _) :: rest => hasRequired rest

end

end Query

end EventCatalog
