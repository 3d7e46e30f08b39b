import EventCatalog.Catalog.Report
import EventCatalog.Cli.Command
import EventCatalog.Config.Load
import EventCatalog.Settings.Record

/-!
# Running commands

A command line becomes a `Job` once its arguments are understood and the configuration is loaded;
`Job.run` carries it out on the directory of the index and says what to print and how the program
ends.
-/

namespace EventCatalog.Cli

/-- How a command ends. -/
inductive Reply where
  /-- Well, with something to print. -/
  | printed (v : Json)
  /-- With an error. -/
  | failed (message : String)
  /-- At its arguments. -/
  | misused (e : UsageError)
  /-- In the middle: a number of days is longer than any span of time. -/
  | aborted
deriving Repr, Inhabited

namespace Reply

/-- The exit code of the program. -/
def exitCode : Reply → UInt32
  | printed _ => 0
  | failed _ => 1
  | misused .help => 0
  | misused _ => 2
  | aborted => 101

/-- The first line on the error stream. -/
def errorLine : Reply → String
  | printed _ | misused .help => ""
  | failed message => "Error: " ++ String.ofList (message.toList.takeWhile (· != '\n'))
  | misused e => "error: " ++ e.message
  | aborted => "the number of days is out of range"

/-- The end of a command that prints what it found. -/
def ofOutcome {α : Type} (f : α → Json) : Except CatalogError α → Reply
  | .ok a => printed (f a)
  | .error e => failed e.message

end Reply

/-- Carries out a change and then prints statistics. -/
def changing (outcome : Catalog.Outcome Unit) : Reply × Catalog :=
  (.ofOutcome (fun _ => outcome.2.stats.toJson) outcome.1, outcome.2)

namespace IndexCommand

/-- Carries out a command on an index that is open. -/
def run (now : Instant) (c : Catalog) : IndexCommand → Reply × Catalog
  | list request => (.ofOutcome Page.toJson (c.list request), c)
  | get uuid =>
    match c.find uuid with
    | .ok none => (.failed ("no event with uuid " ++ uuid.render), c)
    | .ok (some event) => (.printed event.toJson, c)
    | .error e => (.failed e.message, c)
  | severities tags =>
    (.ofOutcome (reportByTag SeverityCounts.toJson) (c.countSeverities tags), c)
  | worst tags => (.ofOutcome (reportByTag Severity.toJson) (c.worstSeverities tags), c)
  | purge days =>
    match Span.ofDays? days.toInt with
    | some span => changing (c.purge now span)
    | none => (.aborted, c)
  | clear => changing (c.clear now)
  | optimize => changing (c.optimize now)
  | stats => (.printed c.stats.toJson, c)

end IndexCommand

/-- The event settings of a configuration, and the bounds that its partitions set to them. -/
def settingsReport (config : Config) : Json :=
  let limits := SettingsLimits.ofPartitions config.partitions
  .obj [
    ("max_archive_purge_days", .int limits.archivePurgeDays.toInt),
    ("max_occurrence_purge_days", .int limits.occurrencePurgeDays.toInt),
    ("settings", .arr (config.events.encode.map SettingRecord.toJson))]

/-- A command with all that it needs but the index. -/
structure Job where
  name : String
  config : Config
  command : Command
deriving Repr, Inhabited

namespace Job

/-- Reads a command line and loads the configuration. Nothing is loaded for arguments that are
refused. -/
def prepare (args : List String) (environment : List (String × String))
    (file : Option String) : Except Reply Job :=
  match Invocation.parse args environment, Config.load file environment with
  | .error e, _ => .error (.misused e)
  | .ok _, .error _ => .error (.failed "failed to load configuration")
  | .ok i, .ok config =>
    let path := i.indexPath.getD config.search.indexPath
    .ok ⟨i.name, { config with search := { config.search with indexPath := path } }, i.command⟩

/-- The directory of the index. -/
def indexPath (job : Job) : String := job.config.search.indexPath

/-- Carries out a command. The index is opened for it and closed after it. -/
def run (job : Job) (now : Instant) (directory : Directory) : Reply × Directory :=
  match job.command with
  | .settings => (.printed (settingsReport job.config), directory)
  | .onIndex command =>
    match Catalog.openDirectory job.name job.config.search directory false with
    | .error _ => (.failed ("failed to open index at " ++ job.indexPath), directory)
    | .ok c =>
      let p := command.run now c
      (p.1, p.2.close)

end Job

end EventCatalog.Cli
