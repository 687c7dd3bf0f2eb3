import Emend.Batch.Change
import Emend.Config.Basic

/-!
# Sessions

A session applies messages to the files of a store. `prepare` reads a message, fetches the files it
names and works out their new texts; nothing is written. `commit` writes what a batch still has
pending. `run` does both.

One file's refusal by the store is that file's fate and leaves the others alone. Any other failure
ends the action; `commit` then still answers the batch as far as it got.
-/

namespace Emend

/-- A store with the settings under which it is used. -/
structure Session (σ : Type) where
  store : Store σ
  config : Config := {}
  /-- How the session's own notes are recorded in the state at once. Without it they are left as notes. -/
  journal : Option (Note → σ → σ) := none

namespace Session

variable {σ : Type}

/-! ## Notes -/

/-- A note of the session. -/
def sessionNote (t : Text) : Note := { channel := .session, text := t }

/-- The numbers in square brackets. -/
def showIndices (is : List Int) : Text :=
  '[' :: Text.joinWith ", ".toList (is.map Text.ofInt) ++ [']']

/-- What reading a message leaves in the log. -/
def parseNotes (tag : Message.FileTag) (message : Text) (o : Message.Outcome) : List Note :=
  if (Message.blocks tag message).isEmpty then
    [{ channel := .parse,
       text := "parse found no file markers in ".toList ++ message.summary Text.summaryLimit }]
  else
    { channel := .parse,
      text := "parsed ".toList ++ Text.ofNat o.instructions.length ++ " instruction(s) with ".toList ++
        Text.ofNat o.errors.length ++ " error(s)".toList } ::
      o.errors.map fun e =>
        { channel := .parse, isWarning := true, text := "parse error ".toList ++ e.text }

/-- What applying instructions leaves in the log: the one that failed. -/
def mergeNotes (r : MergeResult) : List Note :=
  match r.failure with
  | none => []
  | some f =>
    [{ channel := .merge, isWarning := true,
       text := f.instruction.operation.name.toList ++ " failed for ".toList ++ f.instruction.path ++
         ": ".toList ++ MergeError.summary f.instruction.operation (.error f.error) }]

/-- Makes notes. -/
def note (s : Session σ) (ns : List Note) : Act σ Unit :=
  match s.journal with
  | none => Act.notes ns
  | some record => (Act.notes ns).recording record

/-! ## Preparing -/

/-- The numbers in ascending order, each once. -/
def ascending (is : List Int) : List Int := is.eraseDups.mergeSort

/-- The instructions of the given numbers in their order, and the numbers of no instruction. -/
def select (is : List Instruction) : Option (List Int) → List Instruction × List Int
  | none => (is, [])
  | some asked =>
    let inRange (i : Int) : Bool := decide (0 ≤ i ∧ i < is.length)
    let numbers := ascending asked
    ((numbers.filter inRange).filterMap fun i => is[i.toNat]?, numbers.filter (!inRange ·))

/-- The revision to work on: the one asked for, or else the configured branch. -/
def activeRef (s : Session σ) (ref : Option Text) : Option Text :=
  match ref.getD [] with
  | [] => s.config.branch
  | r => some r

/-- How the session applies instructions. -/
def merger (s : Session σ) : Merger := { policy := s.config.anchorMode }

/-- The change after its instructions have been applied. -/
def merged (c : Change) (r : MergeResult) : Change :=
  match r.failure with
  | some step => c.stopped (.notMerged step)
  | none =>
    if r.deleted then
      if c.existed then { c with isDeletion := true } else c.stopped .nothingToDelete
    else
      let c := { c with after := r.content }
      if c.existed ∧ c.after = c.before then c.stopped .noChanges else c

/-- Applies the instructions of a change to the text it has. -/
def merge (s : Session σ) (c : Change) : Act σ Change := do
  let r := s.merger.applyAll c.instructions c.before
  s.note (mergeNotes r)
  return merged c r

/-- The change of one file. A file that is only created is not fetched. -/
def prepareFile (s : Session σ) (ref : Option Text) (path : Text) (is : List Instruction) :
    Act σ Change := do
  let c : Change := { path, instructions := is }
  if is.all (·.operation = .create) then s.merge c
  else
    match ← (s.store.fetch path ref).attempt with
    | .error e => return c.stopped (.notFetched e)
    | .ok none => s.merge c
    | .ok (some f) =>
      s.merge { c with existed := true, before := some f.text, token := some f.token }

/-- The changes of several files. -/
def prepareFiles (s : Session σ) (ref : Option Text) :
    List (Text × List Instruction) → Act σ (List Change)
  | [] => return []
  | (path, is) :: rest => do
    let c ← s.prepareFile ref path is
    s.note [sessionNote ("prepared ".toList ++ path ++ ": ".toList ++ c.status.name.toList)]
    return c :: (← s.prepareFiles ref rest)

/-- Works out the changes that a message asks for, restricted to the instructions selected. -/
def prepare (s : Session σ) (message : Text) (ref : Option Text) (selection : Option (List Int)) :
    Act σ Batch := do
  let o := Message.parse s.config.fileTag message
  s.note (parseNotes s.config.fileTag message o)
  let (is, ignored) := select o.instructions selection
  if !ignored.isEmpty then
    s.note [{ channel := .session, isWarning := true,
              text := "ignoring instruction indices ".toList ++ showIndices ignored ++
                " (message has ".toList ++ Text.ofNat o.instructions.length ++
                " instruction(s))".toList }]
  s.note [sessionNote ("prepare ".toList ++ message.summary Text.summaryLimit ++ ": ".toList ++
    Text.ofNat is.length ++ " instruction(s) on ".toList ++ s.store.describe)]
  let changes ← s.prepareFiles (s.activeRef ref) (Instruction.groupByPath is)
  return { changes, errors := o.errors, ignored }

/-! ## Committing -/

/-- Writes or deletes the file of a change and answers the file's token. -/
def storeChange (s : Session σ) (ref : Option Text) (c : Change) (message : Text) :
    Act σ (Option Token) :=
  if c.isDeletion then do
    s.store.delete c.path c.token ref (some message)
    return none
  else some <$> s.store.write c.path (c.after.getD []) c.token ref (some message)

theorem storeChange_of_isDeletion {s : Session σ} {ref : Option Text} {c : Change} {message : Text}
    (h : c.isDeletion = true) : s.storeChange ref c message =
      (fun _ => none) <$> s.store.delete c.path c.token ref (some message) := by
  rw [storeChange, if_pos h]
  rfl

theorem storeChange_of_writes {s : Session σ} {ref : Option Text} {c : Change} {message : Text}
    (h : c.isDeletion = false) : s.storeChange ref c message =
      some <$> s.store.write c.path (c.after.getD []) c.token ref (some message) := by
  rw [storeChange, if_neg (by rw [h]; exact Bool.false_ne_true)]

/-- Makes a change. -/
def commitChange (s : Session σ) (ref : Option Text) (c : Change) : Act σ Change := do
  let message ← Act.ofExcept ((s.config.messageFor c.path c.operation).mapError .template)
  match ← (s.storeChange ref c message).attempt with
  | .error e =>
    s.note [{ channel := .session, isWarning := true,
              text := "commit ".toList ++ c.path ++ " failed: ".toList ++ e.message }]
    return c.stopped (.notStored e)
  | .ok token =>
    s.note [sessionNote ("committed ".toList ++ c.path ++ " (".toList ++
      (if c.isDeletion then "deleted" else "written").toList ++ [')'])]
    return { c with status := .success, token }

/-- Makes the pending ones among the changes. Answers the changes afterwards and the failure that
ended the work, if one did. -/
def commitChanges (s : Session σ) (ref : Option Text) :
    List Change → Act σ (List Change × Option Failure)
  | [] => return ([], none)
  | c :: cs =>
    if c.status = .pending then do
      match ← (s.commitChange ref c).outcome with
      | .error e => return (c :: cs, some e)
      | .ok c => do
        let (cs, e) ← s.commitChanges ref cs
        return (c :: cs, e)
    else do
      let (cs, e) ← s.commitChanges ref cs
      return (c :: cs, e)

/-- Makes the pending changes of a batch. Answers the batch afterwards and the failure that ended the
work, if one did. -/
def commit (s : Session σ) (b : Batch) (ref : Option Text) : Act σ (Batch × Option Failure) := do
  let (changes, e) ← s.commitChanges (s.activeRef ref) b.changes
  return ({ b with changes }, e)

/-- Prepares a message and makes the changes it asks for. A dry run makes none. -/
def run (s : Session σ) (message : Text) (ref : Option Text) (isDry : Bool) : Act σ Batch := do
  let b ← s.prepare message ref none
  if isDry then return b
  else
    match ← s.commit b ref with
    | (b, none) => return b
    | (_, some e) => Act.fail e

end Session

end Emend
