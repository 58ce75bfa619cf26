import RowFlow.Json.Reader
import RowFlow.Rows
import RowFlow.Text.Blank

/-!
# Files of rows

A file holds either one JSON value, a row or a list of rows, or one row on each line that is not
blank.
-/

namespace RowFlow.RowFile

/-- Why a text is no file of rows. Bad lines are counted among the lines that are not blank, from
one. -/
inductive Fault where
  | rows (error : RowsError)
  | notAnObject (line : Nat) (value : Value)
  | notJson (line : Nat)

/-- The text of a fault in a file of the given path. The words `invalid JSON` stand for what a
parser tells of the place and the cause, which is not worked out here. -/
def Fault.message (path : String) : Fault → String
  | .rows error => error.message
  | .notAnObject line value => s!"{path}:{line} is not a JSON object: {Json.print value}"
  | .notJson line => s!"{path}:{line}: invalid JSON"

/-- A value as the whole of a file: an object with fields is one row. -/
def rowsOfWhole : Value → Except RowsError (List Row)
  | .object (field :: fields) => .ok [field :: fields]
  | v => rowsOfValue v

/-- The lines between line feeds. A carriage return before one is white space of the line. -/
def lines : List Char → List (List Char)
  | [] => [[]]
  | c :: cs =>
    if c = '\n' then [] :: lines cs
    else match lines cs with
      | [] => [[c]]
      | line :: more => (c :: line) :: more

/-- The row on a line of the given number. -/
def rowOfLine (number : Nat) (line : List Char) : Except Fault Row :=
  match Json.read? (String.ofList line) with
  | some (.object row) => .ok row
  | some v => .error (.notAnObject number v)
  | none => .error (.notJson number)

/-- The rows on lines that are numbered from the given number. -/
def rowsOfLines : Nat → List (List Char) → Except Fault (List Row)
  | _, [] => .ok []
  | number, line :: more => do
    return (← rowOfLine number line) :: (← rowsOfLines (number + 1) more)

/-- The rows of a file's text. -/
def read (text : String) : Except Fault (List Row) :=
  match Json.read? text with
  | some v => (rowsOfWhole v).mapError .rows
  | none => rowsOfLines 1 ((lines text.toList).filter fun line => !line.all Text.isBlank)

/-- The text of rows, each on a line. -/
def write (rows : List Row) : String :=
  String.ofList (rows.flatMap fun row => Json.write (.object row) ++ ['\n'])

end RowFlow.RowFile
