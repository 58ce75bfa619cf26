import RowFlow.CommandLine.Arguments

/-!
# Help and complaints

The texts about how the program is used, and about arguments that it can not use.
-/

namespace RowFlow.CommandLine

def programName : String := "transporter"

def versionText : String := s!"{programName} 0.1.0\n"

/-! ## Help -/

def Level.name : Level → String
  | .top => ""
  | .run => "run"
  | .validate => "validate"
  | .list => "list"
  | .history => "history"

def Level.about : Level → String
  | .top => "Run declarative ETL pipelines"
  | .run => "Run a pipeline"
  | .validate => "Validate a pipeline definition"
  | .list => "List configured pipelines"
  | .history => "Show run history"

def Level.commands : List Level := [.run, .validate, .list, .history]

def helpAbout : String := "Print this message or the help of the given subcommand(s)"

def padTo (width : Nat) (text : String) : String :=
  text ++ String.ofList (List.replicate (width - text.length) ' ')

/-- Names with what they stand for, in two columns. -/
def columns (rows : List (String × String)) : String :=
  let width := (rows.map (·.1.length)).foldl max 0
  String.join (rows.map fun (name, about) => s!"  {padTo width name}  {about}\n")

def valueName (name : String) : String :=
  String.ofList (name.toList.map fun c => if c = '-' then '_' else c.toUpper)

/-- An option with a value is shown with a name for the value. -/
def shown (spec : OptionSpec) : String :=
  if spec.takesValue then s!"--{spec.name} <{valueName spec.name}>" else s!"--{spec.name}"

def optionColumn (spec : OptionSpec) : String :=
  match spec.letter with
  | some c => s!"-{c}, {shown spec}"
  | none => s!"    {shown spec}"

def optionLines (level : Level) : String :=
  columns (level.options.map fun spec => (optionColumn spec, spec.about))

def findOption (level : Level) (name : String) : String :=
  match level.options.find? (·.name = name) with
  | some spec => shown spec
  | none => s!"--{name}"

def usage (level : Level) : String :=
  match level with
  | .top => s!"Usage: {programName} [OPTIONS] <COMMAND>"
  | level =>
    let needed := match level.required? with
      | some name => " " ++ findOption level name
      | none => ""
    s!"Usage: {programName} {level.name} [OPTIONS]{needed}"

def commandLines : String :=
  columns ((Level.commands.map fun c => (c.name, c.about)) ++ [("help", helpAbout)])

def helpText : Topic → String
  | .level .top =>
    s!"{Level.top.about}\n\n{usage .top}\n\nCommands:\n{commandLines}\nOptions:\n{optionLines .top}"
  | .level level => s!"{level.about}\n\n{usage level}\n\nOptions:\n{optionLines level}"
  | .help =>
    let argument := columns [("[COMMAND]...", "Print help for the subcommand(s)")]
    s!"{helpAbout}\n\nUsage: {programName} help [COMMAND]...\n\nArguments:\n{argument}"

/-! ## Complaints -/

def closing : String := "\n\nFor more information, try '--help'.\n"

/-- The option of any level that has a name. -/
def anyOption (name : String) : String :=
  match ((Level.top :: Level.commands).flatMap Level.options).find? (·.name = name) with
  | some spec => shown spec
  | none => s!"--{name}"

def UsageError.message : UsageError → String
  | .help topic => helpText topic
  | .version => versionText
  | .nothingGiven => helpText (.level .top)
  | .noCommand =>
    let names := ", ".intercalate (Level.commands.map Level.name ++ ["help"])
    s!"error: '{programName}' requires a subcommand but one was not provided\n"
      ++ s!"  [subcommands: {names}]\n\n{usage .top}{closing}"
  | .unknownCommand name =>
    s!"error: unrecognized subcommand '{name}'\n\n{usage .top}{closing}"
  | .unknownArgument level text =>
    s!"error: unexpected argument '{text}' found\n\n{usage level}{closing}"
  | .missingOption level name =>
    s!"error: the following required arguments were not provided:\n  {findOption level name}\n\n"
      ++ s!"Usage: {programName} {level.name} {findOption level name}{closing}"
  | .repeatedOption level name =>
    s!"error: the argument '{findOption level name}' cannot be used multiple times\n\n"
      ++ s!"{usage level}{closing}"
  | .missingValue name =>
    s!"error: a value is required for '{anyOption name}' but none was supplied{closing}"
  | .badValue name value =>
    s!"error: invalid value '{value}' for '{anyOption name}': invalid digit found in string"
      ++ closing
  | .unneededValue level name value =>
    s!"error: unexpected value '{value}' for '{findOption level name}' found; no more were "
      ++ s!"expected\n\n{usage level}{closing}"

/-- Help and the version are answers, and anything else is a complaint. -/
def UsageError.isAnswer : UsageError → Bool
  | .help _ | .version => true
  | _ => false

end RowFlow.CommandLine
