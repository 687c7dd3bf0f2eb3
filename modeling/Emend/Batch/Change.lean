import Emend.Diff.Align
import Emend.Edit.Preview
import Emend.Message.Parse
import Emend.Store.Basic

/-!
# Changes and batches

A change is everything known about one file between the reading of a message and the writing of its
result. A batch is the changes that one message asks for, with what in the message could not be used.
-/

namespace Emend

/-- Where a change stands. -/
inductive ChangeStatus where
  | pending
  | success
  | failed
  | anchorNotFound
  | skipped
  deriving DecidableEq, Repr

namespace ChangeStatus

/-- Every status. -/
def all : List ChangeStatus := [pending, success, failed, anchorNotFound, skipped]

/-- The status's name in files and reports. -/
def name : ChangeStatus → String
  | pending => "pending"
  | success => "success"
  | failed => "failed"
  | anchorNotFound => "anchor_not_found"
  | skipped => "skipped"

/-- The status of that name. -/
def ofName? (t : Text) : Option ChangeStatus := all.find? (·.name.toList = t)

/-- The change could not be made. -/
def isFailure : ChangeStatus → Bool
  | failed | anchorNotFound => true
  | pending | success | skipped => false

end ChangeStatus

/-- Why a change is not, or not to be, made. -/
inductive Problem where
  /-- The store refused to fetch the file. -/
  | notFetched (e : StoreError)
  /-- An instruction could not be applied. -/
  | notMerged (step : FailedStep)
  /-- The file to be deleted does not exist. -/
  | nothingToDelete
  /-- The instructions leave the text as it is. -/
  | noChanges
  /-- The store refused to write or delete the file. -/
  | notStored (e : StoreError)
  deriving DecidableEq, Repr

/-- The problem in words. -/
def Problem.message : Problem → Text
  | notFetched e => e.message
  | notMerged step => step.report
  | nothingToDelete => "file does not exist; nothing to delete".toList
  | noChanges => "no changes".toList
  | notStored e => e.message

/-- The kind of the merge error, if the problem is one. -/
def Problem.mergeKind? : Problem → Option MergeErrorKind
  | notMerged step => some step.error.kind
  | _ => none

/-- The status that goes with a problem. -/
def Problem.status : Problem → ChangeStatus
  | notFetched _ | notStored _ => .failed
  | notMerged step => if step.error.kind.isAnchorFailure then .anchorNotFound else .failed
  | nothingToDelete | noChanges => .skipped

/-- One file of a batch. It has at least one instruction. -/
structure Change where
  path : Text
  instructions : List Instruction
  /-- The text before, if the file was fetched and found. -/
  before : Option Text := none
  /-- The text that is to be written. -/
  after : Option Text := none
  status : ChangeStatus := .pending
  problem : Option Problem := none
  token : Option Token := none
  existed : Bool := false
  isDeletion : Bool := false
  deriving DecidableEq, Repr

namespace Change

/-- The operation of the first instruction. -/
def operation (c : Change) : Operation := (c.instructions.head?.map (·.operation)).getD .create

/-- The change with a problem and the status that goes with it. -/
def stopped (c : Change) (p : Problem) : Change := { c with status := p.status, problem := some p }

/-- The text that the change leaves. -/
def result (c : Change) : Option Text := if c.isDeletion then none else c.after

/-- The diff from the text before to the text after. -/
def diff (c : Change) : List Diff.Line := Diff.diff c.before c.result

/-- The counts of that diff. -/
def stats (c : Change) : Diff.Stats := Diff.stats c.diff

end Change

/-- The changes that a message asks for. -/
structure Batch where
  changes : List Change := []
  errors : List Message.ParseError := []
  /-- Numbers of instructions that were asked for and do not exist. -/
  ignored : List Int := []
  deriving DecidableEq, Repr

namespace Batch

/-- The change of that path. -/
def get? (b : Batch) (path : Text) : Option Change := b.changes.find? (·.path = path)

/-- The changes that stand at one of the statuses. -/
def withStatus (b : Batch) (ss : List ChangeStatus) : List Change :=
  b.changes.filter (ss.contains ·.status)

/-- The changes still to be made. -/
def pending (b : Batch) : List Change := b.withStatus [.pending]

/-- The changes that were made. -/
def succeeded (b : Batch) : List Change := b.withStatus [.success]

/-- The changes that could not be made. -/
def failed (b : Batch) : List Change := b.changes.filter (·.status.isFailure)

/-- Something in the message could not be used or done. -/
def hasFailures (b : Batch) : Bool := !b.failed.isEmpty || !b.errors.isEmpty

end Batch

end Emend
