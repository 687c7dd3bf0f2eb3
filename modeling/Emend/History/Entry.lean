import Emend.Batch.Change
import Emend.Config.Basic
import Emend.Data.Json
import Emend.Host

/-!
# History entries

An entry of the history records one batch: when it was made, whether all went well, and the files that
were written or failed. It is kept as one line of JSON. `Entry.check` reads such a line's value
leniently; an entry without an identifier or a time draws them from a `Supply`.
-/

namespace Emend

namespace History

/-- One file of an entry. -/
structure Record where
  path : Text
  operation : Operation
  status : ChangeStatus
  before : Option Text := none
  after : Option Text := none
  deriving DecidableEq, Repr

/-- What the history keeps of a batch. -/
structure Entry where
  id : Text
  time : Timestamp
  repository : Text
  isSuccessful : Bool
  changes : List Record
  deriving DecidableEq, Repr

/-! ## Writing -/

/-- The record as a value. -/
def Record.value (r : Record) : Value :=
  .object [("path", .text r.path), ("operation", .text r.operation.name.toList),
    ("status", .text r.status.name.toList), ("original_content", Config.optionalValue r.before),
    ("modified_content", Config.optionalValue r.after)]

/-- The entry as a value. -/
def Entry.value (e : Entry) : Value :=
  .object [("id", .text e.id), ("timestamp", .text e.time.text), ("repository", .text e.repository),
    ("is_successful", .bool e.isSuccessful), ("changes", .list (e.changes.map Record.value))]

/-- The entry as a line of the history. -/
def Entry.line (e : Entry) : Text := Json.write .compact e.value ++ ['\n']

/-! ## Reading -/

/-- The words for true and for false, in lower case. -/
def boolWords : List (String × Bool) :=
  [("1", true), ("t", true), ("y", true), ("on", true), ("yes", true), ("true", true),
   ("0", false), ("f", false), ("n", false), ("no", false), ("off", false), ("false", false)]

/-- The truth value of a word, whatever the case of its letters. -/
def boolOfText (t : Text) : Except Fault Bool :=
  let lower := t.map Char.toLower
  match boolWords.find? (·.1.toList = lower) with
  | some (_, b) => .ok b
  | none => .error .notBoolText

/-- The truth value of one or zero. -/
def boolOfInt (i : Int) : Except Fault Bool :=
  if i = 0 then .ok false
  else if i = 1 then .ok true
  else if -Config.wordBound ≤ i ∧ i < Config.wordBound then .error .notBoolText
  else .error .notBool

/-- A truth value, read leniently. -/
def checkBool : Value → Except Fault Bool
  | .bool b => .ok b
  | .text t => boolOfText t
  | .brokenText => .error .badUnicode
  | .int i => boolOfInt i
  | .real r => match Config.wholeOfReal r with
    | .ok i => boolOfInt i
    | .error _ => .error .notBool
  | _ => .error .notBool

/-- The name of a member of an enumeration. -/
def checkName {α : Type} (ofName? : Text → Option α) (v : Value) : Except Fault α :=
  match v.text?.bind ofName? with
  | some a => .ok a
  | none => .error .notMember

/-- Checks a field that has to be there. -/
def required {α : Type} (fields : List (Value × Value)) (name : String)
    (check : Value → Checked α) : Checked α :=
  let found : Checked α := match Value.lookup? fields name.toList with
    | none => .invalid [⟨[], .missing⟩]
    | some v => check v
  found.inside (.name name.toList)

/-- Checks a field that may be absent. -/
def optional {α : Type} (fields : List (Value × Value)) (name : String) (otherwise : α)
    (check : Value → Checked α) : Checked α :=
  match Value.lookup? fields name.toList with
  | none => .valid otherwise
  | some v => (check v).inside (.name name.toList)

/-- The record that a value spells. -/
def Record.check : Value → Checked Record
  | .record fs =>
    (required fs "path" fun v => .ofExcept (Config.checkText v)).map Record.mk
      |>.andAlso (required fs "operation" fun v => .ofExcept (checkName Operation.ofName? v))
      |>.andAlso (required fs "status" fun v => .ofExcept (checkName ChangeStatus.ofName? v))
      |>.andAlso (optional fs "original_content" none fun v =>
        .ofExcept (Config.checkOptionalText v))
      |>.andAlso (optional fs "modified_content" none fun v =>
        .ofExcept (Config.checkOptionalText v))
  | _ => .invalid [⟨[], .notRecord⟩]

/-- The records that a value spells. -/
def checkRecords : Value → Checked (List Record)
  | .list vs => Checked.members Record.check 0 vs
  | _ => .invalid [⟨[], .notList⟩]

/-- The entry that a value spells. -/
def Entry.check (v : Value) (s : Supply) : Checked Entry × Supply :=
  match v with
  | .record fs =>
    let lacks (name : String) : Bool := (Value.lookup? fs name.toList).isNone
    let (id, s) := if lacks "id" then s.draw else ([], s)
    let (time, s) := if lacks "timestamp" then s.readClock else (⟨0, none⟩, s)
    let entry := (optional fs "id" id fun v => .ofExcept (Config.checkText v)).map Entry.mk
      |>.andAlso (optional fs "timestamp" time fun v => .ofExcept (Timestamp.check v))
      |>.andAlso (required fs "repository" fun v => .ofExcept (Config.checkText v))
      |>.andAlso (required fs "is_successful" fun v => .ofExcept (checkBool v))
      |>.andAlso (optional fs "changes" [] checkRecords)
    (entry, s)
  | _ => (.invalid [⟨[], .notRecord⟩], s)

/-! ## Entries of batches -/

/-- The change is kept: it was made, or it failed. -/
def isRecorded (c : Change) : Bool := c.status = .success || c.status.isFailure

/-- What is kept of a change. -/
def Record.ofChange (c : Change) : Record where
  path := c.path
  operation := c.operation
  status := c.status
  before := c.before
  after := c.result

/-- The entry of a batch. -/
def Entry.ofBatch (b : Batch) (repository : Text) (s : Supply) : Entry × Supply :=
  let (id, s) := s.draw
  let (time, s) := s.readClock
  ({ id, time, repository, isSuccessful := !b.hasFailures,
     changes := (b.changes.filter isRecorded).map Record.ofChange }, s)

end History

end Emend
