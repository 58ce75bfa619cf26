import RowFlow.Json.Printer

/-!
# Rows in values

A list of objects is a list of rows. Null and the empty object count as no rows.
-/

namespace RowFlow

/-- Why a value is no list of rows. -/
inductive RowsError where
  | notARow (v : Value)
  | notAList (v : Value)

def RowsError.message : RowsError → String
  | .notARow v => s!"expected a row object, got {Json.print v}"
  | .notAList v => s!"expected a list of rows, got {Json.print v}"

def rowOfItem : Value → Except RowsError Row
  | .object fields => .ok fields
  | v => .error (.notARow v)

/-- The rows that a value holds, or the first of its items that is no row. -/
def rowsOfValue : Value → Except RowsError (List Row)
  | .list items => items.mapM rowOfItem
  | .object [] => .ok []
  | .null => .ok []
  | v => .error (.notAList v)

theorem rowsOfValue_ofRows (rows : List Row) : rowsOfValue (.ofRows rows) = .ok rows := by
  change (rows.map Value.object).mapM rowOfItem = .ok rows
  induction rows with
  | nil => rfl
  | cons row rows ih =>
    rw [List.map_cons, List.mapM_cons, ih]
    rfl

end RowFlow
