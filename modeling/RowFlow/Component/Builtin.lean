import RowFlow.Instruction
import RowFlow.Registry
import RowFlow.RowCursor
import RowFlow.RowFile

/-!
# The components that are always there

A writer to the console, a reader and a writer of context variables, a reader of row files and a
writer that appends to them.
-/

namespace RowFlow.Builtin

variable {σ : Type}

/-! ## The console -/

def print (row : Row) : Act σ AdapterError Unit :=
  modify fun site =>
    let line := Json.print (.object row) ++ "\n"
    { site with world := { site.world with console := site.world.console ++ line } }

/-- Prints each row on a line, whatever the action. The instruction may be anything. -/
def console : Writer σ where
  appendOnly := false
  bind text format :=
    (readInstruction .structured Source.value text format).map fun _ =>
      RowCalls.toSink ⟨print, print, print⟩

/-! ## Context variables -/

def variableRow (key : String) (ctx : Context) : Except AdapterError (Option Row) :=
  match ctx.get? key with
  | none | some .null => .ok none
  | some (.object row) => .ok (some row)
  | some (.list []) => .ok none
  | some (.list (.object row :: _)) => .ok (some row)
  | some (.list (v :: _)) =>
    .error (.rejected s!"variable '{key}' does not hold rows: {Json.print v}")
  | some v => .error (.rejected s!"variable '{key}' does not hold a row: {Json.print v}")

def variableRows (key : String) (ctx : Context) : Except AdapterError (List Row) :=
  match ctx.get? key with
  | none => .ok []
  | some (.object (field :: fields)) => .ok [field :: fields]
  | some v => (rowsOfValue v).mapError fun e => .rejected e.message

def answer (result : Except AdapterError α) : Access σ AdapterError α :=
  ExceptT.mk (pure (result.mapError .error))

/-- Reads the row or the rows that a variable holds; the instruction is the variable's name. -/
def variableReader : Reader σ where
  bind text format :=
    (readInstruction .text Source.text text format).map fun key =>
      { findOne := fun ctx => answer (variableRow key ctx)
        findAll := fun ctx => answer (variableRows key ctx)
        findBatches := fun _ _ =>
          answer (.error (.unsupported "flow variables cannot be read in batches")) }

def setVariable (key : String) (value : Value) : Act σ AdapterError Unit :=
  modify fun site => { site with context := site.context.set key value }

/-- Sets a variable to the row, or to the list of rows, that it is given. -/
def variableWriter : Writer σ where
  appendOnly := true
  bind text format :=
    (readInstruction .text Source.text text format).map fun key =>
      { batch := fun _ rows => setVariable key (.ofRows rows)
        row := fun _ row => setVariable key (.object row) }

/-! ## Files -/

/-- The path in an instruction that is not blank, or else the configured one. -/
def effectivePath (instruction configured : Option String) : Except AdapterError String :=
  let given := instruction.bind fun text =>
    let path := Text.trim text.toList
    if path = [] then none else some (String.ofList path)
  match given, configured with
  | some path, _ => .ok path
  | none, some path => .ok path
  | none, none => .error (.rejected "no file path configured")

def load (instruction configured : Option String) : Access σ AdapterError (List Row) := do
  let path ← answer (effectivePath instruction configured)
  let text ← (Access.onDisk (Disk.load path)).mapError .io
  answer ((RowFile.read text).mapError fun fault => .rejected (fault.message path))

/-- Reads the rows of a file; the instruction may name another file. -/
def fileReader (path : Option String) : Reader σ where
  bind text format :=
    (readInstruction .text (Source.option Source.text) text format).map fun instruction =>
      { findOne := fun _ => do return (← load instruction path).head?
        findAll := fun _ => load instruction path
        findBatches := fun size _ => do
          return Cursor.ofList (batches size (← load instruction path)) }

def appendRows (instruction configured : Option String) (rows : List Row) :
    Access σ AdapterError Unit := do
  let path ← answer (effectivePath instruction configured)
  (Access.onDisk (Disk.append path (RowFile.write rows))).mapError .io

/-- Appends rows to a file, each on a line; the instruction may name another file. -/
def fileAppender (path : Option String) : Writer σ where
  appendOnly := true
  bind text format :=
    (readInstruction .text (Source.option Source.text) text format).map fun instruction =>
      { batch := fun _ rows => (appendRows instruction path rows).toAct
        row := fun _ row => (appendRows instruction path [row]).toAct }

/-- The path in the configuration of a file component. -/
def configuredPath (config : Value) : Except String (Option String) :=
  if config.isNull then .ok none
  else
    let read : Decoder (Option String) := fun source => do
      (← source.fields ["path"] [] 0).optional "path" Source.text
    (read (.json config)).mapError ReadError.message

/-! ## Registration -/

/-- Adds the components and the factories that are always there. -/
def addTo (r : Registry σ) : Registry σ :=
  r |>.register "consoleWriter" (.writer console)
    |>.register "flowVariableReader" (.reader variableReader)
    |>.register "flowVariableWriter" (.writer variableWriter)
    |>.registerFactory "console" (fun _ => .ok (.writer console))
    |>.registerFactory "flowVariableReader" (fun _ => .ok (.reader variableReader))
    |>.registerFactory "flowVariableWriter" (fun _ => .ok (.writer variableWriter))
    |>.registerFactory "jsonFile" (fun config =>
      (configuredPath config).map fun path => .reader (fileReader path))
    |>.registerFactory "jsonLines" (fun config =>
      (configuredPath config).map fun path => .writer (fileAppender path))

end RowFlow.Builtin
