import RowFlow.Json.Reader
import RowFlow.Rows

/-!
# Arguments

The arguments name a command, which has options of its own, and there are options that may stand
before or after it. An option with a value takes it from the same argument or from the next one,
which may not look like an option. No option may be given twice at one level.
-/

namespace RowFlow.CommandLine

/-- The levels that options belong to: the program itself and each of its commands. -/
inductive Level where
  | top
  | run
  | validate
  | list
  | history
deriving DecidableEq, Repr

def Level.named : String → Option Level
  | "run" => some .run
  | "validate" => some .validate
  | "list" => some .list
  | "history" => some .history
  | _ => none

/-- An option by its long name, with the letter that stands for it. -/
structure OptionSpec where
  name : String
  letter : Option Char := none
  takesValue : Bool := false
  about : String
deriving Repr

namespace OptionSpec

def verbose : OptionSpec :=
  ⟨"verbose", some 'v', false, "Enable verbose logging (RUST_LOG takes precedence)"⟩

def config : OptionSpec := ⟨"config", some 'c', true, "Path to the engine configuration file"⟩

def events : OptionSpec := ⟨"events", some 'e', false, "Print run events as they happen"⟩

def help : OptionSpec := ⟨"help", some 'h', false, "Print help"⟩

end OptionSpec

/-- The options of a level, in the order in which they are listed. -/
def Level.options : Level → List OptionSpec
  | .top => [.verbose, .config, .events, .help, ⟨"version", some 'V', false, "Print version"⟩]
  | .run => [
    ⟨"pipeline", some 'p', true, "Pipeline key"⟩, .verbose, .config,
    ⟨"file", some 'f', true,
      "Register this definition file under the pipeline key before running"⟩, .events,
    ⟨"params", none, true, "Parameter sets as a JSON array of objects (or a single object)"⟩,
    ⟨"no-history", none, false, "Don't save the run to history"⟩, .help]
  | .validate => [
    ⟨"file", some 'f', true, "Path to pipeline YAML file"⟩, .verbose, .config,
    ⟨"json", none, false, "Print the parsed definition as JSON"⟩, .events, .help]
  | .list => [
    .verbose, ⟨"with-counts", none, false, "Show run counts from history"⟩, .config,
    ⟨"json", none, false, "Output in JSON format"⟩, .events, .help]
  | .history => [
    ⟨"pipeline", some 'p', true, "Pipeline key to filter by"⟩, .verbose, .config,
    ⟨"limit", some 'l', true, "Number of recent runs to show [default: 10]"⟩,
    ⟨"details", none, false, "Print the full run record with `--run-id`"⟩, .events,
    ⟨"json", none, false, "Output in JSON format"⟩,
    ⟨"run-id", none, true, "Show a single run"⟩, .help]

/-- The option that a level can not do without. -/
def Level.required? : Level → Option String
  | .run => some "pipeline"
  | .validate => some "file"
  | _ => none

/-! ## Errors -/

/-- What help is asked about: a level, or the command for help. -/
inductive Topic where
  | level (level : Level)
  | help
deriving DecidableEq, Repr

/-- Why arguments name nothing to do. Help and the version are asked for in the same way. -/
inductive UsageError where
  | help (topic : Topic)
  | version
  | nothingGiven
  | noCommand
  | unknownCommand (name : String)
  | unknownArgument (level : Level) (text : String)
  | missingOption (level : Level) (name : String)
  | repeatedOption (level : Level) (name : String)
  | missingValue (name : String)
  | badValue (name value : String)
  | unneededValue (level : Level) (name value : String)
deriving DecidableEq, Repr

/-! ## Options -/

/-- What a level has found so far. -/
structure Scan where
  /-- The options with their values; an option without values has an empty one. -/
  found : Dict String := []
  /-- The last option with a value. The value is checked only when the next option begins. -/
  pending : Option (String × Option String) := none

/-- A limit may have a plus sign and has to fit 64 bits. -/
def limit? (text : String) : Option Nat :=
  let digits := match text.toList with
    | '+' :: cs => cs
    | cs => cs
  if digits = [] ∨ !digits.all Json.isDigit then none
  else
    let n := Json.natOfDigits digits
    if n < Nat.pow 2 64 then some n else none

namespace Scan

/-- Enters an option. -/
def enter (s : Scan) (level : Level) (name value : String) : Except UsageError Scan :=
  if s.found.contains name then .error (.repeatedOption level name)
  else if name = "limit" ∧ limit? value = none then .error (.badValue name value)
  else .ok { s with found := s.found.insert name value }

/-- Enters the pending option, which needs a value by now. -/
def settle (s : Scan) (level : Level) : Except UsageError Scan :=
  match s.pending with
  | none => .ok s
  | some (name, none) => .error (.missingValue name)
  | some (name, some value) => { s with pending := none }.enter level name value

/-- Takes an option that has no value. -/
def flag (s : Scan) (level : Level) (name : String) : Except UsageError Scan := do
  let s ← s.settle level
  if name = "help" then throw (.help (.level level))
  else if name = "version" then throw .version
  else s.enter level name ""

/-- Takes an option with a value, which may still have to come. -/
def option (s : Scan) (level : Level) (name : String) (value : Option String) :
    Except UsageError Scan := do
  let s ← s.settle level
  match value with
  | some value => s.enter level name value
  | none => return { s with pending := some (name, none) }

/-- Whether the last option still needs a value. -/
def wantsValue (s : Scan) : Bool :=
  match s.pending with
  | some (_, none) => true
  | _ => false

/-- Takes the text after two hyphens. -/
def long (s : Scan) (level : Level) (text : List Char) : Except UsageError Scan :=
  let name := String.ofList (text.takeWhile (· ≠ '='))
  let value := match text.dropWhile (· ≠ '=') with
    | [] => none
    | _ :: cs => some (String.ofList cs)
  match level.options.find? (·.name = name), value with
  | none, _ => .error (.unknownArgument level ("--" ++ name))
  | some spec, value =>
    if spec.takesValue then s.option level name value
    else match value with
      | some value => .error (.unneededValue level name value)
      | none => s.flag level name

/-- Takes the letters after one hyphen. The letters after one that takes a value are the value. -/
def letters (level : Level) : List Char → Scan → Except UsageError Scan
  | [], s => .ok s
  | c :: cs, s =>
    match level.options.find? (·.letter = some c) with
    | none => .error (.unknownArgument level (String.ofList ['-', c]))
    | some spec =>
      if spec.takesValue then
        match cs with
        | [] => s.option level spec.name none
        | '=' :: value => s.option level spec.name (some (String.ofList value))
        | value => s.option level spec.name (some (String.ofList value))
      else do letters level cs (← s.flag level spec.name)

end Scan

/-! ## Levels -/

/-- What help on a command of this name is about. -/
def Topic.named (name : String) : Option Topic :=
  if name = "help" then some .help else (Level.named name).map .level

/-- The answer to a request for help with a command. No command has commands of its own. -/
def helpOn : List String → UsageError
  | [] => .help (.level .top)
  | name :: rest =>
    match Topic.named name, rest with
    | some topic, [] => .help topic
    | some _, next :: _ => .unknownCommand next
    | none, _ => .unknownCommand name

def isCommand (level : Level) (text : String) : Bool :=
  level = .top && (Topic.named text).isSome

/-- An argument that is no option, no value and no command. -/
def stray (level : Level) (text : String) (afterHyphens : Bool) : UsageError :=
  if level = .top ∧ !(afterHyphens && isCommand level text) then .unknownCommand text
  else .unknownArgument level text

/-- Takes the arguments of a level, up to a command and the arguments after it. -/
def scan (level : Level) :
    List String → Scan → Except UsageError (Scan × Option (Level × List String))
  | [], s => .ok (s, none)
  | text :: rest, s =>
    if isCommand level text && !s.wantsValue then
      match Level.named text with
      | some command => .ok (s, some (command, rest))
      | none => .error (helpOn rest)
    else match text.toList with
      | ['-', '-'] =>
        match rest with
        | [] => .ok (s, none)
        | next :: _ => .error (stray level next true)
      | '-' :: '-' :: cs => do scan level rest (← s.long level cs)
      | '-' :: c :: cs => do scan level rest (← Scan.letters level (c :: cs) s)
      | _ =>
        match s.pending with
        | some (name, none) => scan level rest { s with pending := some (name, some text) }
        | _ => .error (stray level text false)

/-- The options of a command. -/
def options (level : Level) (args : List String) : Except UsageError (Dict String) := do
  let (s, _) ← scan level args {}
  let s ← s.settle level
  match level.required? with
  | some name => if s.found.contains name then return s.found else throw (.missingOption level name)
  | none => return s.found

/-! ## Commands -/

structure RunCommand where
  pipeline : String
  file : Option String
  /-- The text of the parameter sets. -/
  params : Option String
  noHistory : Bool
deriving Repr

structure ValidateCommand where
  file : String
  json : Bool
deriving Repr

structure ListCommand where
  withCounts : Bool
  json : Bool
deriving Repr

structure HistoryCommand where
  pipeline : Option String
  limit : Nat
  details : Bool
  json : Bool
  runId : Option String
deriving Repr

inductive Command where
  | run (command : RunCommand)
  | validate (command : ValidateCommand)
  | list (command : ListCommand)
  | history (command : HistoryCommand)
deriving Repr

structure Invocation where
  command : Command
  verbose : Bool
  config : Option String
  events : Bool
deriving Repr

def Command.ofOptions (level : Level) (o : Dict String) : Option Command :=
  match level with
  | .top => none
  | .run => do return .run {
      pipeline := ← o.find? "pipeline", file := o.find? "file", params := o.find? "params"
      noHistory := o.contains "no-history" }
  | .validate => do return .validate { file := ← o.find? "file", json := o.contains "json" }
  | .list => some (.list { withCounts := o.contains "with-counts", json := o.contains "json" })
  | .history => some (.history {
      pipeline := o.find? "pipeline"
      limit := ((o.find? "limit").bind limit?).getD 10
      details := o.contains "details", json := o.contains "json", runId := o.find? "run-id" })

/-- What arguments ask for. An option of all levels counts as it is given at the command, or else
before it. -/
def parse (args : List String) : Except UsageError Invocation := do
  let (s, found) ← scan .top args {}
  match found with
  | none =>
    let s ← s.settle .top
    throw (if s.found.isEmpty then .nothingGiven else .noCommand)
  | some (level, rest) =>
    let own ← options level rest
    let outer := (← s.settle .top).found
    match Command.ofOptions level own with
    | none => throw .noCommand
    | some command =>
      return {
        command
        verbose := own.contains "verbose" || outer.contains "verbose"
        config := (own.find? "config").or (outer.find? "config")
        events := own.contains "events" || outer.contains "events" }

/-! ## Parameter sets -/

/-- Why a text gives no parameter sets. -/
inductive ParamsError where
  | notJson
  | rows (error : RowsError)

/-- The text of an error. The words `invalid JSON` stand for what a parser tells of the cause. -/
def ParamsError.message : ParamsError → String
  | .notJson => "--params is not JSON: invalid JSON"
  | .rows error => error.message

/-- The parameter sets of a run: an object is one set. -/
def RunCommand.paramSets (command : RunCommand) : Except ParamsError (Option (List Row)) :=
  match command.params with
  | none => .ok none
  | some text =>
    match Json.read? text with
    | none => .error .notJson
    | some (.object row) => .ok (some [row])
    | some v => (rowsOfValue v).map some |>.mapError .rows

end RowFlow.CommandLine
