import RowFlow.History.Record

/-!
# Stores of run records

A store keeps the last record that was saved under each run id. Records are listed from the newest
submission to the oldest. One store keeps them in memory, the other in the rows of a table.
-/

namespace RowFlow

class RunStore (τ : Type) where
  empty : τ
  save : τ → RunRecord → τ
  load? : τ → String → Option RunRecord
  /-- The records of a pipeline, newest first. -/
  ofPipeline : τ → String → List RunRecord
  /-- So many records of all pipelines, newest first. -/
  recent : τ → Nat → List RunRecord
  /-- The keys of the pipelines that have records, in order. -/
  pipelines : τ → List String

/-- Texts in increasing order, without repetitions. -/
def sortedTexts (texts : List String) : List String :=
  (Dict.ofEntries (texts.map fun text => (text, ()))).keys

/-! ## In memory -/

/-- Records by run id. -/
structure MemoryStore where
  runs : Dict RunRecord := []
deriving Repr

namespace MemoryStore

def newestFirst (runs : List RunRecord) : List RunRecord :=
  runs.mergeSort fun a b => b.submitted.le a.submitted

def records (s : MemoryStore) : List RunRecord := s.runs.map Prod.snd

instance : RunStore MemoryStore where
  empty := {}
  save s r := ⟨s.runs.insert r.runId r⟩
  load? s runId := s.runs.find? runId
  ofPipeline s key := newestFirst (s.records.filter (·.pipeline = key))
  recent s limit := (newestFirst s.records).take limit
  pipelines s := sortedTexts (s.records.map (·.pipeline))

end MemoryStore

/-! ## In a table -/

/-- The rows of a table, in the order of their insertion. No two have the same run id. -/
structure TableStore where
  rows : List RunRecord := []
deriving Repr

namespace TableStore

/-- Orders rows by the text of their submission time, from the last to the first. -/
def descending (rows : List RunRecord) : List RunRecord :=
  rows.mergeSort fun a b => decide (b.submitted.columnText ≤ a.submitted.columnText)

/-- A limit is a signed number of 64 bits, of which a negative one sets no limit. -/
def limited (limit : Nat) (rows : List RunRecord) : List RunRecord :=
  let signed := (limit : Int).bmod (Nat.pow 2 64)
  if signed < 0 then rows else rows.take signed.toNat

instance : RunStore TableStore where
  empty := {}
  save s r := ⟨s.rows.filter (·.runId ≠ r.runId) ++ [r]⟩
  load? s runId := s.rows.find? (·.runId = runId)
  ofPipeline s key := descending (s.rows.filter (·.pipeline = key))
  recent s limit := limited limit (descending s.rows)
  pipelines s := sortedTexts (s.rows.map (·.pipeline))

end TableStore

end RowFlow
