import RowFlow.Disk
import RowFlow.History.Store
import RowFlow.Json.Printer

/-!
# History files

A history is kept in a file with a record on each line. The file is made in a folder that exists.
-/

namespace RowFlow.HistoryFile

/-- Why a history can not be opened. -/
inductive Fault where
  | noFile
  | notAHistory

def Fault.message : Fault → String
  | .noFile => "unable to open database file"
  | .notAHistory => "file is not a database"

def recordOfLine? (line : String) : Option RunRecord := do
  let v ← Json.read? line
  (RunRecord.read (.json v)).toOption

/-- The table that a text holds. -/
def read? (text : String) : Option TableStore := do
  let lines := (text.splitOn "\n").filter (· ≠ "")
  return ⟨← lines.mapM recordOfLine?⟩

def write (store : TableStore) : String :=
  String.join (store.rows.map fun r => Json.print r.value ++ "\n")

/-- Opens the history in a file, which is made if it is missing. -/
def load (path : String) : StateM Disk (Except Fault TableStore) := do
  match ← Disk.append path "" with
  | .error _ => return .error .noFile
  | .ok () =>
    match read? (((← get).read? path).getD "") with
    | some store => return .ok store
    | none => return .error .notAHistory

end RowFlow.HistoryFile
