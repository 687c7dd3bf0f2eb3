import Emend.Batch.RunLog
import Emend.Cli.Arguments
import Emend.Config.File
import Emend.Diff.Render
import Emend.History.File
import Emend.Store.Configured

/-!
# Running a command

`run` carries out a command in a world and answers a `Report`: what was printed, and how it ended. A
failure of the input, of the configuration or of a store ends the command with a line of complaint;
what was printed before stays, and so does what was done. Any other failure is passed on.

The notes of a command go to the log of the run at once if one is kept, and else nowhere.
-/

namespace Emend.Cli

/-- The code with which the program ends. -/
inductive ExitCode where
  | ok
  | failures
  | usage
  deriving DecidableEq, Repr

/-- The code as a number. -/
def ExitCode.number : ExitCode → Nat
  | ok => 0
  | failures => 1
  | usage => 2

/-- How a command ended. -/
inductive Ending where
  | finished (code : ExitCode)
  /-- The argument list was refused. -/
  | rejected (e : UsageError)
  /-- A failure was reported. -/
  | failed (e : Failure)

/-- The code of an ending. -/
def Ending.code : Ending → ExitCode
  | finished code => code
  | rejected _ | failed _ => .usage

/-- The line that an ending adds to the complaints. -/
def Ending.lines : Ending → List Text
  | finished _ => []
  | rejected e => [e.line]
  | failed e => ["error: ".toList ++ e.message]

/-- What a command printed, what it complained of, and how it ended. -/
structure Report where
  output : List Text := []
  complaints : List Text := []
  ending : Ending

/-- Lines, each with its line feed. -/
def printed (ls : List Text) : Text := ls.flatMap (· ++ ['\n'])

/-- A world with what was printed so far. -/
structure Console (ρ : Type) where
  world : World ρ
  output : List Text := []
  complaints : List Text := []

section

variable {ρ α : Type}

/-- The world with a note in the log of the run. -/
def record (n : Note) (w : World ρ) : World ρ := w.withDisk (RunLog.record n w.host.disk)

/-- Runs an action in the world. -/
def inWorld (x : Act (World ρ) α) : Act (Console ρ) α :=
  (x.recording record).focus (·.world) fun w c => { c with world := w }

/-- Runs an action on the host. -/
def onHost (x : Act Host α) : Act (Console ρ) α := inWorld (World.onHost x)

/-- Prints lines. -/
def say (ls : List Text) : Act (Console ρ) Unit :=
  Act.modify fun c => { c with output := c.output ++ ls }

/-- Prints lines of complaint. -/
def complain (ls : List Text) : Act (Console ρ) Unit :=
  Act.modify fun c => { c with complaints := c.complaints ++ ls }

/-! ## Messages and settings -/

/-- The text of a message that comes from a file, or from the standard input if it is named `-`. -/
def readMessage (input : Bytes) (source : Text) : Act Host Text := do
  let bs ← if source = ['-'] then pure input else Host.bytesAt (← Host.place source)
  match Utf8.decode bs with
  | .ok t => return Text.universalNewlines t
  | .error e => Act.fail (.notText e)

/-- The settings that were given on the command line. -/
def Arguments.overrides (a : Arguments) : List (Text × Value) :=
  [("store".toList, Config.optionalValue a.store), ("root".toList, Config.optionalValue a.root),
   ("repository".toList, Config.optionalValue a.repository),
   ("branch".toList, Config.optionalValue a.ref),
   ("anchor_mode".toList, Config.optionalValue a.anchorMode),
   ("file_tag".toList, Config.optionalValue a.fileTag)]

/-- The name that a configuration has for itself, and that no replacement can have. -/
def ownName : Text := "self".toList

/-- The configuration with settings replaced. -/
def overridden (c : Config) (overrides : List (Text × Value)) : Except Failure Config :=
  if overrides.any (·.1 = ownName) then .error (.reservedSetting ownName)
  else (c.withOverrides overrides).mapError fun es =>
    .unacceptable "Invalid configuration override".toList (some es)

/-- The configuration of the configuration file with what was given on the command line. -/
def Arguments.resolve (a : Arguments) : Act Host Config := do
  let c ← Config.loadOrDefault a.config
  Act.ofExcept (overridden c a.overrides)

/-! ## What is printed -/

/-- The complaints about a message. -/
def errorLines (es : List Message.ParseError) : List Text :=
  es.map fun e => "parse error: ".toList ++ e.text

/-- The instructions of a message, numbered from `n`. -/
def instructionLines (n : Nat) : List Instruction → List Text
  | [] => []
  | i :: is =>
    (Text.ofNat n ++ ": ".toList ++ i.operation.name.toList ++ ' ' :: i.path) ::
      instructionLines (n + 1) is

/-- A change with its problem. -/
def changeLines (c : Change) : List Text :=
  ("== ".toList ++ c.path ++ " [".toList ++ c.status.name.toList ++ "] ".toList ++
      c.operation.description.toList) ::
    match (c.problem.map Problem.message).getD [] with
    | [] => []
    | m => ["   ".toList ++ m]

/-- The diff of a change that did not fail and changes something. -/
def diffLines (context : Int) (c : Change) : List Text :=
  if !c.status.isFailure && c.stats.isChanged then [Diff.render (some context) c.diff] else []

/-- The complaint about instructions that were selected and do not exist. -/
def ignoredLine (ignored : List Int) : Text :=
  "--only: no instruction with index ".toList ++ Text.joinWith ", ".toList (ignored.map Text.ofInt)

/-- The code of a batch. -/
def batchCode (b : Batch) : ExitCode := if b.hasFailures then .failures else .ok

/-- An entry of the history. -/
def entryLine (e : History.Entry) : Text :=
  e.id.take 8 ++ ' ' :: e.time.listText ++ (if e.isSuccessful then " ok " else " failed ").toList ++
    e.repository ++ " (".toList ++ Text.ofNat e.changes.length ++ " file(s))".toList

/-- A file of an entry. -/
def recordLine (r : History.Record) : Text :=
  "   ".toList ++ r.status.name.toList ++ ' ' :: r.operation.name.toList ++ ' ' :: r.path

/-- An entry of the history, with its files if they are asked for. -/
def entryLines (showsChanges : Bool) (e : History.Entry) : List Text :=
  entryLine e :: if showsChanges then e.changes.map recordLine else []

/-! ## The commands -/

/-- Lists the instructions in a message. -/
def listInstructions (c : Config) (message : Text) : Act (Console ρ) ExitCode := do
  let o := Message.parse c.fileTag message
  inWorld (Act.notes (Session.parseNotes c.fileTag message o))
  say (instructionLines 0 o.instructions)
  complain (errorLines o.errors)
  return if o.isOk then .ok else .failures

/-- The session with the configured store. -/
def openSession (service : Hosting ρ) (c : Config) (s : OpenStore) : Session (World ρ) where
  store := (s.store service).recording record
  config := c
  journal := some record

/-- Shows the diff that each file would receive. -/
def previewChanges (service : Hosting ρ) (input : Bytes) (c : Config) (source : Text) (context : Int)
    (only : Option (List Int)) : Act (Console ρ) ExitCode := do
  let s ← inWorld (Act.reading c.openStore)
  let message ← onHost (readMessage input source)
  let b ← inWorld ((openSession service c s).prepare message none only)
  if !b.ignored.isEmpty then
    complain [ignoredLine b.ignored]
    return .usage
  else
    say (b.changes.flatMap fun c => changeLines c ++ diffLines context c)
    complain (errorLines b.errors)
    return batchCode b

/-- Commits the index if a message for that is given and some change was made. -/
def commitIndex (b : Batch) (message : Text) : Act (Console ρ) Unit := do
  if !message.isEmpty && !b.succeeded.isEmpty then
    let id ← inWorld (World.onWorktree (GitWorktree.commit message none))
    say ["commit ".toList ++ id]

/-- Adds the batch to the history if one is kept. -/
def recordHistory (c : Config) (describe : Text) (b : Batch) : Act (Console ρ) Unit := do
  match c.historyFile.getD [] with
  | [] => return
  | path =>
    let _ ← onHost (History.recordBatch b path (c.repository.getD describe) c.historyLimit)

/-- Writes the summary of the batch if a log is kept. -/
def summarize (log : Option RunLog) (b : Batch) : Act (Console ρ) Unit := do
  match log with
  | none => return
  | some log =>
    let _ ← onHost (log.writeSummary b)

/-- Writes the edited files back to the store. -/
def applyChanges (service : Hosting ρ) (input : Bytes) (c : Config) (log : Option RunLog)
    (source : Text) (only : Option (List Int)) (commitMessage : Option Text) :
    Act (Console ρ) ExitCode := do
  let commitMessage := commitMessage.getD []
  let s ← inWorld (Act.reading c.openStore)
  if !commitMessage.isEmpty && !s.isGit then
    complain ["--commit-git requires the git store".toList]
    return .usage
  else
    let session := openSession service c s
    let message ← onHost (readMessage input source)
    let b ← inWorld (session.prepare message none only)
    if !b.ignored.isEmpty then
      complain [ignoredLine b.ignored]
      return .usage
    else
      match ← inWorld (session.commit b none) with
      | (_, some e) => Act.fail e
      | (b, none) =>
        say (b.changes.flatMap changeLines)
        complain (errorLines b.errors)
        commitIndex b commitMessage
        recordHistory c session.store.describe b
        summarize log b
        return batchCode b

/-- Lists the history. -/
def listHistory (path : Text) (limit : Option Int) (showsChanges : Bool) :
    Act (Console ρ) ExitCode := do
  let entries ← onHost (History.load path)
  let entries := match limit with
    | none => entries
    | some n => entries.take n.toNat
  if entries.isEmpty then say ["(no history)".toList]
  say (entries.flatMap (entryLines showsChanges))
  return .ok

/-- Lists or clears the history. -/
def showHistory (c : Config) (clears : Bool) (limit : Option Int) (showsChanges : Bool) :
    Act (Console ρ) ExitCode := do
  match c.historyFile.getD [] with
  | [] =>
    complain ["history_file is not configured".toList]
    return .usage
  | path =>
    if clears then
      let n ← onHost (History.clear path)
      say ["cleared ".toList ++ Text.ofNat n ++ " entries".toList]
      return .ok
    else listHistory path limit showsChanges

/-- Carries out a command. -/
def Command.perform (service : Hosting ρ) (input : Bytes) (c : Config) (log : Option RunLog) :
    Command → Act (Console ρ) ExitCode
  | parse source => do listInstructions c (← onHost (readMessage input source))
  | preview source context only => previewChanges service input c source context only
  | apply source only commitMessage => applyChanges service input c log source only commitMessage
  | history clears limit showsChanges => showHistory c clears limit showsChanges

/-! ## The program -/

/-- The directory of logs: the one given, or else the configured one. -/
def Arguments.logsRoot (a : Arguments) (c : Config) : Text :=
  let root := match a.logDir.getD [] with
    | [] => c.logsRoot
    | t => t
  if root.isEmpty then ['.'] else root

/-- Starts the log of the run if one is asked for. -/
def Arguments.startLog (a : Arguments) (c : Config) : Act Host (Option RunLog) :=
  if a.log || !(a.logDir.getD []).isEmpty then some <$> RunLog.start none (some (a.logsRoot c))
  else return none

/-- Carries out what was asked for. -/
def Arguments.perform (service : Hosting ρ) (input : Bytes) (a : Arguments) :
    Act (Console ρ) ExitCode := do
  let c ← onHost a.resolve
  let log ← onHost (a.startLog c)
  a.command.perform service input c log

/-- Carries out what was asked for and reports on it. -/
def Arguments.run (service : Hosting ρ) (input : Bytes) (a : Arguments) : Act (World ρ) Report :=
  fun w =>
    let r := a.perform service input { world := w.withDisk { w.host.disk with streams := [] } }
    let report (ending : Ending) : Report := ⟨r.state.output, r.state.complaints, ending⟩
    match r.result with
    | .ok code => ⟨.ok (report (.finished code)), r.state.world, r.notes⟩
    | .error e =>
      if e.isReported then ⟨.ok (report (.failed e)), r.state.world, r.notes⟩
      else ⟨.error e, r.state.world, r.notes⟩

/-- How a program is used, in short. -/
def usageLines (program : Text) : List Text := ["usage: ".toList ++ program ++ " [options] ...".toList]

/-- Runs the program on an argument list. -/
def run (service : Hosting ρ) (input : Bytes) (args : List Text) : Act (World ρ) Report :=
  match Request.ofList args with
  | .error e => return { ending := .rejected e }
  | .ok (.help program) => return { output := usageLines program, ending := .finished .ok }
  | .ok (.run a) => a.run service input

end

end Emend.Cli
