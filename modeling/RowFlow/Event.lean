import RowFlow.Definition

/-!
# Events of a run

What observers of a run are told while it goes on.
-/

namespace RowFlow

inductive Event where
  | runStarted (runId pipeline : String)
  /-- A parameter set begins; the sets are counted from zero. -/
  | paramsStarted (runId pipeline : String) (index : Nat) (params : Row)
  | flowStarted (pipeline flow desc : String)
  /-- A batch was read; the batches of a flow are counted from one. -/
  | batchRead (pipeline flow : String) (index rows : Nat)
  | rowsWritten (pipeline writer : String) (action : WriteAction) (rows : Nat)
  | writerSkipped (pipeline writer reason : String)
  | recordsFailed (pipeline writer : String) (rows : Nat)
  | runCompleted (runId pipeline : String)
  | runFailed (runId pipeline error : String)
deriving Repr

end RowFlow
