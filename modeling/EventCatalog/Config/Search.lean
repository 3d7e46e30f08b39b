import EventCatalog.Error

/-!
# Configuration of the index

Where the index lies, what its writer may use, when segments are merged, and how large a page may
be.
-/

namespace EventCatalog

/-- The least memory of one indexing thread, in bytes. -/
def minHeapPerThread : Nat := 15000000

/-- The memory of one indexing thread has to stay below this, in bytes. -/
def heapPerThreadLimit : Nat := 4293967295

/-- The configuration of the index. -/
structure SearchConfig where
  /-- The directory of the index. -/
  indexPath : String
  /-- The memory of the writer in bytes. -/
  writerHeapSize : Nat
  indexingThreads : Nat
  /-- The number of staged changes after which a commit also merges the segments. -/
  optimizeThreshold : Nat
  /-- The size of a page for which none is asked, and the greatest. -/
  maxResults : Nat
deriving DecidableEq, Repr

namespace SearchConfig

/-- The configuration that holds unless another is set. -/
def default : SearchConfig := ⟨"./data/event_index", 50000000, 2, 5000, 100⟩

instance : Inhabited SearchConfig := ⟨default⟩

/-- The threads that the memory is enough for, at least one and at most those asked for. -/
def effectiveThreads (c : SearchConfig) : Nat :=
  max 1 (min c.indexingThreads (max 1 (c.writerHeapSize / minHeapPerThread)))

/-- A test of a number against an interval. -/
def check (field : String) (value : Nat) (least : Nat) (greatest : Option Nat) :
    List Rejection :=
  if least ≤ value && greatest.all (value ≤ ·) then []
  else [⟨field, some least, greatest.map Int.ofNat, value⟩]

/-- The settings that are refused. -/
def rejections (c : SearchConfig) : List Rejection :=
  check "writer_heap_size" c.writerHeapSize minHeapPerThread none ++
  check "indexing_threads" c.indexingThreads 1 (some 8) ++
  check "optimize_threshold" c.optimizeThreshold 1 none ++
  check "max_results" c.maxResults 1 (some 100)

/-- The configuration as JSON. -/
def toJson (c : SearchConfig) : Json := .obj [
  ("index_path", .str c.indexPath),
  ("writer_heap_size", .int c.writerHeapSize),
  ("indexing_threads", .int c.indexingThreads),
  ("optimize_threshold", .int c.optimizeThreshold),
  ("max_results", .int c.maxResults)]

/-- Decodes a configuration of the index. -/
def decoder : Json.Decoder SearchConfig :=
  (SearchConfig.mk <$> Json.Record.required "index_path" Json.path
    <*> Json.Record.required "writer_heap_size" Json.size
    <*> Json.Record.required "indexing_threads" Json.size
    <*> Json.Record.required "optimize_threshold" Json.size
    <*> Json.Record.required "max_results" Json.size).decode "struct SearchConfig"

end SearchConfig

end EventCatalog
