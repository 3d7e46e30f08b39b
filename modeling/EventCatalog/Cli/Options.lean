/-!
# Options on a command line

`scan` takes the arguments of a command apart by the options that the command has. A long option is
`--name value` or `--name=value`, a short one `-n value`, `-nvalue` or `-n=value`. A value does not
begin with a hyphen unless it is attached, or is a hyphen alone. Behind `--` there are only
operands. Arguments end at the name of a command inside the command.
-/

namespace EventCatalog.Cli

/-- An option of a command. -/
inductive OptionSpec where
  /-- One without a value. It may be given once. -/
  | flag (long : String)
  /-- One with a value. -/
  | value (long : String) (short : Option Char) (repeatable : Bool)
deriving DecidableEq, Repr

/-- Why the arguments make no command. -/
inductive UsageError where
  | unknownOption (given : String)
  | missingValue (option : String)
  | unexpectedValue (option : String)
  | repeatedOption (option : String)
  | unexpectedOperand (given : String)
  | missingOperand (name : String)
  | missingOption (option : String)
  | invalidValue (name : String) (given : String)
  | missingCommand
  /-- An explanation is asked for. -/
  | help
deriving DecidableEq, Repr, Inhabited

/-- What the error says. -/
def UsageError.message : UsageError → String
  | unknownOption given => "unexpected argument '" ++ given ++ "'"
  | missingValue option => "a value is required for '--" ++ option ++ "'"
  | unexpectedValue option => "unexpected value for '--" ++ option ++ "'"
  | repeatedOption option => "'--" ++ option ++ "' cannot be used multiple times"
  | unexpectedOperand given => "unexpected argument '" ++ given ++ "'"
  | missingOperand name => "'" ++ name ++ "' is required"
  | missingOption option => "'--" ++ option ++ "' is required"
  | invalidValue name given => "invalid value '" ++ given ++ "' for '" ++ name ++ "'"
  | missingCommand => "a command is required"
  | help => ""

namespace OptionSpec

/-- The long name of an option. -/
def long : OptionSpec → String
  | flag name => name
  | value name _ _ => name

/-- Whether a letter is the short name of an option. -/
def hasShort (c : Char) : OptionSpec → Bool
  | flag _ => false
  | value _ short _ => short == some c

end OptionSpec

/-- What an argument looks like. -/
inductive Argument where
  | separator
  | long (name : List Char) (attached : Option (List Char))
  | short (name : Char) (attached : Option (List Char))
  | operand
deriving DecidableEq, Repr

/-- What an argument looks like. -/
def Argument.ofText (s : String) : Argument :=
  match s.toList with
  | ['-', '-'] => .separator
  | '-' :: '-' :: rest =>
    match rest.dropWhile (· != '=') with
    | _ :: v => .long (rest.takeWhile (· != '=')) (some v)
    | [] => .long rest none
  | ['-'] => .operand
  | ['-', c] => .short c none
  | '-' :: c :: '=' :: v => .short c (some v)
  | '-' :: c :: v => .short c (some v)
  | _ => .operand

/-- The arguments taken apart. -/
structure Scanned where
  /-- The options in their order, each with its value; that of a flag is empty. -/
  options : List (String × String) := []
  operands : List String := []
  /-- The command inside the command, with its arguments. -/
  command : Option (String × List String) := none
deriving Repr

namespace Scanned

/-- Adds an option. Only some may be given several times. -/
def record (found : Scanned) (o : OptionSpec) (v : String) : Except UsageError Scanned :=
  let again := found.options.any fun p => p.1 == o.long
  match o, again with
  | .value _ _ true, _ | _, false => .ok { found with options := found.options ++ [(o.long, v)] }
  | _, true => .error (.repeatedOption o.long)

end Scanned

/-- Takes arguments apart. `pending` is an option that waits for its value. -/
def scan (specs : List OptionSpec) (commands : List String) (pending : Option OptionSpec)
    (found : Scanned) : List String → Except UsageError Scanned
  | [] => pending.elim (.ok found) fun o => .error (.missingValue o.long)
  | arg :: rest =>
    match pending, Argument.ofText arg with
    | some o, .operand => do
      scan specs commands none (← found.record o arg) rest
    | some o, _ => .error (.missingValue o.long)
    | none, .operand =>
      if commands.contains arg then .ok { found with command := some (arg, rest) }
      else scan specs commands none { found with operands := found.operands ++ [arg] } rest
    | none, .separator => .ok { found with operands := found.operands ++ rest }
    | none, .long name attached =>
      let name := String.ofList name
      match specs.find? (·.long == name), attached with
      | some (.flag long), none => do
        scan specs commands none (← found.record (.flag long) "") rest
      | some (.flag long), some _ => .error (.unexpectedValue long)
      | some o, some v => do
        scan specs commands none (← found.record o (String.ofList v)) rest
      | some o, none => scan specs commands (some o) found rest
      | none, none => .error (if name == "help" then .help else .unknownOption arg)
      | none, some _ => .error (.unknownOption arg)
    | none, .short c attached =>
      match specs.find? (·.hasShort c), attached with
      | some o, some v => do
        scan specs commands none (← found.record o (String.ofList v)) rest
      | some o, none => scan specs commands (some o) found rest
      | none, _ => .error (if c == 'h' then .help else .unknownOption arg)

namespace Scanned

/-- The values of an option. -/
def texts (s : Scanned) (option : String) : List String :=
  s.options.filterMap fun p => if p.1 == option then some p.2 else none

/-- Whether an option is given. -/
def has (s : Scanned) (option : String) : Bool := s.options.any fun p => p.1 == option

/-- Reads a value. -/
def read {α : Type} (name : String) (read? : String → Option α) (given : String) :
    Except UsageError α :=
  (read? given).elim (.error (.invalidValue name given)) .ok

/-- The values of an option that may be given several times. -/
def each {α : Type} (s : Scanned) (option : String) (read? : String → Option α) :
    Except UsageError (List α) :=
  (s.texts option).mapM (read option read?)

/-- The value of an option that may be left out. -/
def one {α : Type} (s : Scanned) (option : String) (read? : String → Option α) :
    Except UsageError (Option α) :=
  (s.texts option).head?.mapM (read option read?)

/-- Refuses operands. -/
def noOperands (s : Scanned) : Except UsageError Unit :=
  s.operands.head?.elim (.ok ()) fun given => .error (.unexpectedOperand given)

end Scanned

end EventCatalog.Cli
