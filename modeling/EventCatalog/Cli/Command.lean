import EventCatalog.Cli.Options
import EventCatalog.Search.Request
import EventCatalog.Uuid

/-!
# Commands

What an operator can ask of an index on the command line. `Invocation.parse` reads the arguments:
options of the program, the name of a command, and the arguments of the command.
-/

namespace EventCatalog.Cli

/-- A command that works on an index. -/
inductive IndexCommand where
  /-- Prints a page of events. -/
  | list (request : Request)
  /-- Prints one event. -/
  | get (uuid : Uuid)
  /-- Prints the numbers of open events by severity, for each tag. -/
  | severities (tags : List String)
  /-- Prints the worst severity of open events, for each tag. -/
  | worst (tags : List String)
  /-- Deletes the events that were last seen so many days ago or earlier. -/
  | purge (days : Int64)
  /-- Deletes all events. -/
  | clear
  /-- Merges the segments. -/
  | optimize
  /-- Prints statistics. -/
  | stats
deriving Repr, Inhabited

/-- A command. -/
inductive Command where
  | onIndex (command : IndexCommand)
  /-- Prints the event settings of the configuration. -/
  | settings
deriving Repr, Inhabited

/-- What the program is asked to do. -/
structure Invocation where
  /-- The directory of the index, unless the configured one is meant. -/
  indexPath : Option String
  name : String
  command : Command
deriving Repr, Inhabited

/-- The names by which the sorts of a list are chosen. -/
def sortNames : List (String × SortField) := [
  ("count", .count),
  ("element", .element),
  ("sub-element", .subElement),
  ("class", .eventClass),
  ("summary", .summary),
  ("first-seen", .firstSeen),
  ("last-seen", .lastSeen),
  ("severity", .severity),
  ("status", .status),
  ("status-change", .statusChange),
  ("update-time", .updateTime)]

/-- The names of the commands. -/
def commandNames : List String :=
  ["list", "get", "severities", "worst", "purge", "clear", "optimize", "stats", "settings", "help"]

/-! ### The arguments of the commands -/

/-- The options of `list`. -/
def listOptions : List OptionSpec := [
  .value "status" (some 's') true,
  .value "severity" (some 'S') true,
  .value "element" (some 'e') false,
  .value "summary" none false,
  .value "class" (some 'c') false,
  .value "tag" (some 't') true,
  .value "sort" none false,
  .flag "ascending",
  .value "limit" (some 'l') false,
  .value "offset" (some 'o') false]

/-- Reads the arguments of a command that has no operands. -/
def scanOptions (specs : List OptionSpec) (args : List String) : Except UsageError Scanned := do
  let s ← scan specs [] none {} args
  s.noOperands
  return s

/-- Reads the arguments of `list`. -/
def parseList (args : List String) : Except UsageError IndexCommand := do
  let s ← scanOptions listOptions args
  let filter : Filter := {
    statuses := ← s.each "status" Status.ofName?
    severities := ← s.each "severity" Severity.ofName?
    element := (s.texts "element").head?
    summary := (s.texts "summary").head?
    eventClass := (s.texts "class").head?
    tags := s.texts "tag" }
  let sort ← s.one "sort" fun given => sortNames.lookup given
  let limit ← s.one "limit" Text.int64Of?
  let offset ← s.one "offset" Text.int64Of?
  let direction := if s.has "ascending" then Direction.ascending else .descending
  return .list {
    filter := some filter
    sort := [⟨sort.getD .lastSeen, direction⟩]
    limit := limit.map Int64.toInt
    offset := offset.map Int64.toInt }

/-- Reads the arguments of `get`. -/
def parseGet (args : List String) : Except UsageError IndexCommand := do
  let s ← scan [] [] none {} args
  match s.operands with
  | [] => throw (.missingOperand "UUID")
  | [given] => return .get (← Scanned.read "UUID" Uuid.ofText? given)
  | _ :: extra :: _ => throw (.unexpectedOperand extra)

/-- Reads the arguments of a command on tags, of which it needs one at least. -/
def parseTags (args : List String) : Except UsageError (List String) := do
  let s ← scanOptions [.value "tag" (some 't') true] args
  match s.texts "tag" with
  | [] => throw (.missingOption "tag")
  | tags => return tags

/-- Reads the arguments of `purge`. -/
def parsePurge (args : List String) : Except UsageError IndexCommand := do
  let s ← scanOptions [.value "days" (some 'd') false] args
  match ← s.one "days" Text.int64Of? with
  | some days => return .purge days
  | none => throw (.missingOption "days")

/-- Reads the arguments of a command that takes none. -/
def parseNone (command : Command) (args : List String) : Except UsageError Command := do
  let _ ← scanOptions [] args
  return command

/-- Reads the arguments of a command. -/
def Command.parse (name : String) (args : List String) : Except UsageError Command :=
  match name with
  | "list" => .onIndex <$> parseList args
  | "get" => .onIndex <$> parseGet args
  | "severities" => (.onIndex ∘ .severities) <$> parseTags args
  | "worst" => (.onIndex ∘ .worst) <$> parseTags args
  | "purge" => .onIndex <$> parsePurge args
  | "clear" => parseNone (.onIndex .clear) args
  | "optimize" => parseNone (.onIndex .optimize) args
  | "stats" => parseNone (.onIndex .stats) args
  | "settings" => parseNone .settings args
  | "help" => match args.find? fun arg => !commandNames.contains arg with
    | some given => .error (.unexpectedOperand given)
    | none => .error .help
  | _ => .error (.unexpectedOperand name)

/-! ### The whole command line -/

/-- The options of the program. -/
def programOptions : List OptionSpec :=
  [.value "index-path" (some 'i') false, .value "name" (some 'n') false]

/-- The variable of the environment that may name the directory of the index. -/
def indexPathVariable : String := "EVENT_INDEX_PATH"

/-- A path, which must not be empty. -/
def path? (s : String) : Option String := if s.isEmpty then none else some s

/-- Reads the arguments of the program. -/
def Invocation.parse (args : List String) (environment : List (String × String)) :
    Except UsageError Invocation := do
  let s ← scan programOptions commandNames none {} args
  s.noOperands
  match s.command with
  | none => throw .missingCommand
  | some (name, args) =>
    let command ← Command.parse name args
    let path ← s.one "index-path" path?
    let configured ← (environment.lookup indexPathVariable).mapM fun given =>
      if path.isSome then .ok given else Scanned.read indexPathVariable path? given
    return {
      indexPath := path.or configured
      name := (s.texts "name").head?.getD "event_summary"
      command := command }

end EventCatalog.Cli
