import RowFlow.Context.Reading
import RowFlow.Event.Data
import RowFlow.Main
import RowFlow.Proofs.Actions
import RowFlow.Proofs.Admission
import RowFlow.Proofs.Batches
import RowFlow.Proofs.Chunking
import RowFlow.Proofs.Cursors
import RowFlow.Proofs.DeadLetter
import RowFlow.Proofs.Depth
import RowFlow.Proofs.Disabled
import RowFlow.Proofs.Independence
import RowFlow.Proofs.Isolation
import RowFlow.Proofs.JsonTemplates
import RowFlow.Proofs.Preparation
import RowFlow.Proofs.Queueing
import RowFlow.Proofs.Records
import RowFlow.Proofs.Resolution
import RowFlow.Proofs.RowByRow
import RowFlow.Proofs.RowFiles
import RowFlow.Proofs.RowLines
import RowFlow.Proofs.RunIds
import RowFlow.Proofs.Schedules
import RowFlow.Proofs.Substitution
import RowFlow.Proofs.Wrapping
import RowFlow.Proofs.Writes
import RowFlow.Proofs.Validity
import RowFlow.Proofs.Deliveries
import RowFlow.Proofs.HandOver
