import EventCatalog.Cli.Run
import EventCatalog.Index.Stored
import Std.Time.DateTime.Timestamp

/-!
# The program

Inspects and maintains the event index of a directory. Everything that is decided is decided by
`Cli.Job.prepare` and `Cli.Job.run`; here arguments, variables and files are read and written.
-/

namespace EventCatalog.Cli

/-- How the program is called. -/
def usage : String :=
  "Usage: event-catalog [-i PATH] [-n NAME] COMMAND\n\n" ++
  "  list        List events matching a filter\n" ++
  "  get UUID    Show one event\n" ++
  "  severities  Severity counts of open events per tag\n" ++
  "  worst       Worst open severity per tag\n" ++
  "  purge       Delete events last seen at least this many days ago\n" ++
  "  clear       Delete every event in the index\n" ++
  "  optimize    Consolidate segments and expunge deletes\n" ++
  "  stats       Print index statistics\n" ++
  "  settings    Validate the configuration and print the effective event settings"

/-- The text of a file, if it can be read. -/
def textOf? (path : String) : IO (Option String) :=
  try some <$> IO.FS.readFile path catch _ => return none

/-- The variables of the environment. -/
def readEnvironment : IO (List (String × String)) := do
  let text := (← textOf? "/proc/self/environ").getD ""
  return (text.splitOn "\x00").filterMap fun entry =>
    match entry.splitOn "=" with
    | name :: rest@(_ :: _) => some (name, String.intercalate "=" rest)
    | _ => none

/-- The text of the configuration file: the one that a variable names, or the usual one. -/
def readConfigFile (environment : List (String × String)) : IO (Option String) := do
  let path := (environment.lookup "EVENT_INDEXER_CONFIG").getD "config/event-indexer"
  let exact ← if path.endsWith ".toml" then textOf? path else pure none
  match exact with
  | some text => return some text
  | none => textOf? (path ++ ".toml")

/-- The time of day. -/
def readClock : IO Instant := do
  let now ← Std.Time.Timestamp.now
  return (Instant.ofMillis? now.toMillisecondsSinceUnixEpoch.val).getD Instant.epoch

/-- Carries out a job on its directory. -/
def runJob (job : Job) : IO Reply := do
  let file := job.indexPath ++ "/index.json"
  let now ← readClock
  let (reply, after) := job.run now (.ofText (← textOf? file))
  match job.command, after.text? with
  | .onIndex _, some text =>
    try
      IO.FS.createDirAll job.indexPath
      IO.FS.writeFile file text
      return reply
    catch _ => return (job.run now .file).1
  | _, _ => return reply

/-- Prints a reply. -/
def printReply (reply : Reply) : IO UInt32 := do
  match reply with
  | .printed v => IO.println v.renderIndented
  | .misused .help => IO.println usage
  | _ => IO.eprintln reply.errorLine
  return reply.exitCode

end EventCatalog.Cli

open EventCatalog.Cli in
/-- Runs a command line. -/
def main (args : List String) : IO UInt32 := do
  let environment ← readEnvironment
  match Job.prepare args environment (← readConfigFile environment) with
  | .error reply => printReply reply
  | .ok job => printReply (← runJob job)
