import RowFlow.Context
import RowFlow.Source

/-!
# Contexts as data

A context is a structure with its variables as the only field.
-/

namespace RowFlow.Context

/-- Takes the variables as they are given, nulls included. -/
def read : Decoder Context := fun source => do
  let fields ← source.fields ["variables"] [] 1
  return ⟨← fields.required "variables" Source.row⟩

/-- The structure that `read` reads. -/
def document (ctx : Context) : Value := .object [("variables", ctx.value)]

end RowFlow.Context
