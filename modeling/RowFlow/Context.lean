import RowFlow.Value

/-!
# The context of a run

Variables by name. A null is never stored: setting a variable to null removes it.
-/

namespace RowFlow

structure Context where
  bindings : Row
deriving Repr, Inhabited

namespace Context

def runIdKey : String := "pipelineRunId"
def pipelineKeyKey : String := "pipelineKey"
def batchIndexKey : String := "batchIndex"
def batchSizeKey : String := "batchSize"

def empty : Context := ⟨[]⟩

def get? (ctx : Context) (key : String) : Option Value := ctx.bindings.find? key

def remove (ctx : Context) (key : String) : Context := ⟨ctx.bindings.erase key⟩

/-- Null deletes, anything else overwrites. -/
def set (ctx : Context) (key : String) (value : Value) : Context :=
  match value with
  | .null => ctx.remove key
  | value => ⟨ctx.bindings.insert key value⟩

/-- Sets every variable of a parameter set. -/
def merge (ctx : Context) (params : Row) : Context :=
  params.foldl (fun ctx entry => ctx.set entry.1 entry.2) ctx

def runId? (ctx : Context) : Option String := (ctx.get? runIdKey).bind Value.text?

def pipelineKey? (ctx : Context) : Option String := (ctx.get? pipelineKeyKey).bind Value.text?

def batchIndex? (ctx : Context) : Option Nat := (ctx.get? batchIndexKey).bind Value.nat?

def value (ctx : Context) : Value := .object ctx.bindings

theorem get?_remove (ctx : Context) (key other : String) :
    (ctx.remove key).get? other = if key = other then none else ctx.get? other :=
  Dict.find?_erase ..

theorem set_null (ctx : Context) (key : String) : ctx.set key .null = ctx.remove key := rfl

theorem get?_set (ctx : Context) {value : Value} (h : value ≠ .null) (key other : String) :
    (ctx.set key value).get? other = if key = other then some value else ctx.get? other := by
  cases value with
  | null => contradiction
  | _ => exact Dict.find?_insert ..

end Context

end RowFlow
