import EventCatalog.Analysis.Analyzer
import EventCatalog.Analysis.Grams
import EventCatalog.Analysis.Token
import EventCatalog.Analysis.Words
import EventCatalog.Catalog.Basic
import EventCatalog.Catalog.Read
import EventCatalog.Catalog.Report
import EventCatalog.Cli.Command
import EventCatalog.Cli.Options
import EventCatalog.Cli.Run
import EventCatalog.Config.Basic
import EventCatalog.Config.Indexer
import EventCatalog.Config.Layer
import EventCatalog.Config.Layout
import EventCatalog.Config.Load
import EventCatalog.Config.Search
import EventCatalog.Decimal.Notation
import EventCatalog.Decimal.Read
import EventCatalog.Decimal.Shortest
import EventCatalog.Error
import EventCatalog.Event.Basic
import EventCatalog.Event.Severity
import EventCatalog.Event.Status
import EventCatalog.Index.Basic
import EventCatalog.Index.Collect
import EventCatalog.Index.Segment
import EventCatalog.Index.Snapshot
import EventCatalog.Index.Stored
import EventCatalog.Index.Writer
import EventCatalog.Json.Decode
import EventCatalog.Json.Parser
import EventCatalog.Json.Printer
import EventCatalog.Json.Value
import EventCatalog.Main
import EventCatalog.Metrics.Basic
import EventCatalog.Metrics.Exposition
import EventCatalog.Pattern.Automaton
import EventCatalog.Pattern.Glob
import EventCatalog.Pattern.Regex
import EventCatalog.Proofs.ArchiveLag
import EventCatalog.Proofs.ArchiveMirror
import EventCatalog.Proofs.Batches
import EventCatalog.Proofs.ByteOrder
import EventCatalog.Proofs.Calendar
import EventCatalog.Proofs.CatchingUp
import EventCatalog.Proofs.ClassPaths
import EventCatalog.Proofs.ClauseLists
import EventCatalog.Proofs.Clearing
import EventCatalog.Proofs.Committing
import EventCatalog.Proofs.Consolidation
import EventCatalog.Proofs.Contents
import EventCatalog.Proofs.CountTables
import EventCatalog.Proofs.CurrentView
import EventCatalog.Proofs.Draining
import EventCatalog.Proofs.EventDocument
import EventCatalog.Proofs.EventFields
import EventCatalog.Proofs.EventJson
import EventCatalog.Proofs.Exploration
import EventCatalog.Proofs.Expressions
import EventCatalog.Proofs.FilterQueries
import EventCatalog.Proofs.FilteredDeletion
import EventCatalog.Proofs.FinalSigma
import EventCatalog.Proofs.Forgetting
import EventCatalog.Proofs.Fragments
import EventCatalog.Proofs.GlobLanguage
import EventCatalog.Proofs.GramWindows
import EventCatalog.Proofs.Grams
import EventCatalog.Proofs.HandlerReuse
import EventCatalog.Proofs.IndexingLoop
import EventCatalog.Proofs.InstantText
import EventCatalog.Proofs.JsonNumbers
import EventCatalog.Proofs.JsonText
import EventCatalog.Proofs.LateFailures
import EventCatalog.Proofs.Leases
import EventCatalog.Proofs.Ledger
import EventCatalog.Proofs.Lifetime
import EventCatalog.Proofs.Listing
import EventCatalog.Proofs.LowerCase
import EventCatalog.Proofs.MergedPages
import EventCatalog.Proofs.Milliseconds
import EventCatalog.Proofs.Mirror
import EventCatalog.Proofs.NamedFields
import EventCatalog.Proofs.Numbering
import EventCatalog.Proofs.Numerals
import EventCatalog.Proofs.Outlook
import EventCatalog.Proofs.OwnName
import EventCatalog.Proofs.Paging
import EventCatalog.Proofs.PendingContent
import EventCatalog.Proofs.Phrases
import EventCatalog.Proofs.Plans
import EventCatalog.Proofs.Publishing
import EventCatalog.Proofs.PurgeBounds
import EventCatalog.Proofs.PurgeCommand
import EventCatalog.Proofs.Purging
import EventCatalog.Proofs.Refinement
import EventCatalog.Proofs.Replacement
import EventCatalog.Proofs.Restarts
import EventCatalog.Proofs.Selection
import EventCatalog.Proofs.SettingKinds
import EventCatalog.Proofs.SeverityRollUp
import EventCatalog.Proofs.SortKeys
import EventCatalog.Proofs.SortOrder
import EventCatalog.Proofs.Steadiness
import EventCatalog.Proofs.StoredSettings
import EventCatalog.Proofs.StructuredFilters
import EventCatalog.Proofs.Substrings
import EventCatalog.Proofs.Tables
import EventCatalog.Proofs.TextPatterns
import EventCatalog.Proofs.Throttling
import EventCatalog.Proofs.TopKeys
import EventCatalog.Proofs.Visibility
import EventCatalog.Proofs.Watermark
import EventCatalog.Proofs.WordPatterns
import EventCatalog.Proofs.WrittenWords
import EventCatalog.Queue.Batch
import EventCatalog.Queue.CatalogFeed
import EventCatalog.Queue.Connection
import EventCatalog.Queue.Drain
import EventCatalog.Queue.Indexer
import EventCatalog.Queue.Recorder
import EventCatalog.Queue.Table
import EventCatalog.Queue.Throttle
import EventCatalog.Search.Clause
import EventCatalog.Search.Document
import EventCatalog.Search.Explain
import EventCatalog.Search.Filter
import EventCatalog.Search.Query
import EventCatalog.Search.Request
import EventCatalog.Search.Schema
import EventCatalog.Search.Sort
import EventCatalog.Search.Translate
import EventCatalog.Settings.Event
import EventCatalog.Settings.Partition
import EventCatalog.Settings.Record
import EventCatalog.Text.Alphanumeric
import EventCatalog.Text.Blank
import EventCatalog.Text.Cased
import EventCatalog.Text.LowerCase
import EventCatalog.Text.Numeral
import EventCatalog.Text.Printable
import EventCatalog.Text.Quoted
import EventCatalog.Text.Ranges
import EventCatalog.Time.Civil
import EventCatalog.Time.Instant
import EventCatalog.Time.Rfc3339
import EventCatalog.Time.Span
import EventCatalog.Toml.Lexical
import EventCatalog.Toml.Parser
import EventCatalog.Toml.Scalar
import EventCatalog.Toml.Tree
import EventCatalog.Uuid
