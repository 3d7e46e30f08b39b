import EventCatalog.Json.Decode

/-!
# Errors

Two families. A `CatalogError` is what the catalog itself reports: which operation failed and why.
A `ServiceError` is what the service around it reports; every catalog error has a place there
(`CatalogError.toService`). Both consist of a kind, which fixes how the message begins, and a
cause.
-/

namespace EventCatalog

/-- A setting whose value is outside the interval that it may be in. -/
structure Rejection where
  field : String
  least : Option Int
  greatest : Option Int
  value : Int
deriving DecidableEq, Repr

/-- The settings that were refused as JSON, each with the interval and the value. -/
def Rejection.listToJson (rejections : List Rejection) : Json :=
  .obj (rejections.map fun r => (r.field, .obj (
    [("code", Json.str "range"), ("value", .int r.value)] ++
    (r.least.map fun n => ("min", Json.int n)).toList ++
    (r.greatest.map fun n => ("max", Json.int n)).toList)))

/-- What an error says after the beginning that its kind fixes. -/
inductive Cause where
  | text (s : String)
  | decoding (e : DecodeError)
  | rejected (fields : List Rejection)
  /-- A pattern that has no automaton of bearable size. -/
  | badPattern (pattern : String)
deriving DecidableEq, Repr, Inhabited

/-- The wording of a cause. -/
def Cause.message : Cause → String
  | text s => s
  | decoding e => e.message
  | rejected fields =>
    String.intercalate "\n" (fields.map fun r => r.field ++ ": Validation error: range")
  | badPattern pattern =>
    "bad pattern " ++ Text.quoted pattern ++ ": An invalid argument was passed: " ++
      "'RegexQueryError: Compiled regex exceeds size limit of 1000 states'"

/-- What the service was doing when it failed. -/
inductive ServiceError.Kind where
  | storage
  | database
  | invalidArgument
  | unsupportedFieldType
  | notFound
  | validation
  | configuration
  | io
  | serialization
  | processing
  | indexingFatal
  | internal
deriving DecidableEq, Repr, Inhabited

/-- An error of the service. -/
structure ServiceError where
  kind : ServiceError.Kind
  cause : Cause
deriving DecidableEq, Repr, Inhabited

/-- What the catalog was doing when it failed. -/
inductive CatalogError.Kind where
  /-- Opening the index. -/
  | opening
  /-- Building a query. -/
  | queryBuilding
  /-- Running a query. -/
  | searching
  /-- Adding documents. -/
  | indexing
  /-- Removing documents. -/
  | deleting
  /-- Nothing yet: an argument was refused. -/
  | invalidArgument
  /-- Decoding a stored document. -/
  | serialization
  | io
  | invalidConfiguration
  /-- An operation of the index that has no kind of its own. -/
  | engine
deriving DecidableEq, Repr, Inhabited

/-- An error of the catalog. -/
structure CatalogError where
  kind : CatalogError.Kind
  cause : Cause
deriving DecidableEq, Repr, Inhabited

namespace ServiceError

/-- All kinds. -/
def Kind.all : List Kind := [.storage, .database, .invalidArgument, .unsupportedFieldType,
  .notFound, .validation, .configuration, .io, .serialization, .processing, .indexingFatal,
  .internal]

/-- How messages of a kind begin. -/
def Kind.lead : Kind → String
  | .storage => "Storage error"
  | .database => "Database error"
  | .invalidArgument => "Invalid argument"
  | .unsupportedFieldType => "Unsupported field type"
  | .notFound => "Not found"
  | .validation => "Validation error"
  | .configuration => "Configuration error"
  | .io => "IO error"
  | .serialization => "Serialization error"
  | .processing => "Processing error"
  | .indexingFatal => "Fatal indexing error"
  | .internal => "Internal error"

/-- The code by which programs tell kinds apart. -/
def Kind.code : Kind → String
  | .storage => "STORAGE_ERROR"
  | .database => "DATABASE_ERROR"
  | .invalidArgument => "INVALID_ARGUMENT"
  | .unsupportedFieldType => "UNSUPPORTED_FIELD_TYPE"
  | .notFound => "NOT_FOUND"
  | .validation => "VALIDATION_ERROR"
  | .configuration => "CONFIGURATION_ERROR"
  | .io => "IO_ERROR"
  | .serialization => "SERIALIZATION_ERROR"
  | .processing => "PROCESSING_ERROR"
  | .indexingFatal => "INDEXING_FATAL"
  | .internal => "INTERNAL_ERROR"

/-- An error with a message of its own. -/
def ofText (kind : Kind) (s : String) : ServiceError := ⟨kind, .text s⟩

/-- The whole message. -/
def message (e : ServiceError) : String := e.kind.lead ++ ": " ++ e.cause.message

/-- Whether reading or writing the index failed. -/
def isStorage (e : ServiceError) : Bool := e.kind == .storage || e.kind == .io

end ServiceError

namespace CatalogError

/-- All kinds. -/
def Kind.all : List Kind := [.opening, .queryBuilding, .searching, .indexing, .deleting,
  .invalidArgument, .serialization, .io, .invalidConfiguration, .engine]

/-- How messages of a kind begin. -/
def Kind.lead : Kind → String
  | .opening => "Index initialization failed"
  | .queryBuilding => "Query construction failed"
  | .searching => "Search execution failed"
  | .indexing => "Document indexing failed"
  | .deleting => "Document deletion failed"
  | .invalidArgument => "Invalid argument"
  | .serialization => "Serialization error"
  | .io => "IO error"
  | .invalidConfiguration => "Invalid configuration"
  | .engine => "Tantivy error"

/-- An error with a message of its own. -/
def ofText (kind : Kind) (s : String) : CatalogError := ⟨kind, .text s⟩

/-- The whole message. -/
def message (e : CatalogError) : String := e.kind.lead ++ ": " ++ e.cause.message

/-- Whether reading or writing the index failed. -/
def isStorage (e : CatalogError) : Bool :=
  match e.kind with
  | .opening | .searching | .indexing | .deleting | .io | .engine => true
  | .queryBuilding | .invalidArgument | .serialization | .invalidConfiguration => false

/-- The error of the service that reports an error of the catalog. What has no kind there is a
failure of storage, with the whole message. -/
def toService (e : CatalogError) : ServiceError :=
  match e.kind with
  | .invalidArgument | .queryBuilding => ⟨.invalidArgument, e.cause⟩
  | .invalidConfiguration => ⟨.configuration, e.cause⟩
  | .serialization => ⟨.serialization, e.cause⟩
  | .io => ⟨.io, e.cause⟩
  | .opening | .searching | .indexing | .deleting | .engine => .ofText .storage e.message

/-- A stored document could not be decoded. -/
def ofDecoding (e : DecodeError) : CatalogError := ⟨.serialization, .decoding e⟩

end CatalogError

end EventCatalog
