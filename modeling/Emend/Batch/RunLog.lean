import Emend.Batch.Session
import Emend.Data.Json
import Emend.Host

/-!
# The log of a run

A run can keep a log: a directory of its own, named for the time and the run, with a file for each
channel of notes and a summary of the batch. The files of the channels are held open; notes are added to
them as long as they are on the disk.
-/

namespace Emend

/-- The log of a run. -/
structure RunLog where
  runId : Text
  root : Path
  directory : Location

namespace RunLog

/-- The name of a channel's file. -/
def fileName : Channel → String
  | .parse => "parse.log"
  | .merge => "merge.log"
  | .store => "store.log"
  | .session => "session.log"

/-- The channels in the order in which their files are made. -/
def channels : List Channel := [.parse, .merge, .store, .session]

/-- The place of a file of the log. -/
def fileAt (log : RunLog) (name : String) : Location :=
  { log.directory with names := log.directory.names ++ [name.toList] }

/-- The place of the summary. -/
def summaryAt (log : RunLog) : Location := log.fileAt "summary.txt"

/-- Starts the log of a run below the directory `logsRoot`. A run without a name is given one. -/
def start (runId logsRoot : Option Text) : Act Host RunLog := do
  let rootText := match logsRoot.getD [] with
    | [] => "logs".toList
    | t => t
  let root ← Act.reading fun h => do
    (Location.ofText h.disk.cwd rootText).checkNames
    return Path.resolve h.disk.cwd rootText
  Host.makeDirs (.ofPath root)
  let runId ← match runId.getD [] with
    | [] => Host.draw
    | t => pure t
  let now ← Host.readClock
  let name := now.nameText ++ '-' :: runId.take 6
  let below := (Location.ofText root name).names
  let log : RunLog := { runId, root, directory := .ofPath (root ++ below) }
  Act.ofExcept log.directory.checkNames
  Host.makeDirs log.directory
  channels.forM fun c => do
    Act.modify fun h => { h with disk := h.disk.closeStream (fileName c).toList }
    Host.alter (·.openStream (fileName c).toList (log.fileAt (fileName c)))
  return log

/-- The note as a line of its file. -/
def noteLine (n : Note) : Text :=
  (if n.isWarning then "WARNING" else "INFO").toList ++ " | ".toList ++ n.text ++ ['\n']

/-- Adds a note to the open file of its channel, if there is one. -/
def record (n : Note) (d : Disk) : Disk :=
  d.addTo (fileName n.channel).toList (Utf8.encode (noteLine n))

/-- A change on a line of the summary. -/
def changeLine (c : Change) : Text :=
  let problem := match (c.problem.map Problem.message).getD [] with
    | [] => []
    | m => " (".toList ++ m ++ [')']
  "- ".toList ++ c.path ++ ": ".toList ++ c.status.name.toList ++ problem

/-- The summary of a batch. -/
def summary (log : RunLog) (b : Batch) : Text :=
  let errors := match b.errors with
    | [] => []
    | es => [] :: "Parse errors:".toList :: es.map fun e => "- ".toList ++ e.text
  Text.unlines
    (["Run ID: ".toList ++ log.runId,
      "Status: ".toList ++ (if b.hasFailures then "failed" else "success").toList, [],
      "Files:".toList] ++ b.changes.map changeLine ++ errors)

/-- The summary of a batch in the log. -/
def summaryNote (log : RunLog) (b : Batch) : Note :=
  let files := Value.record (b.changes.map fun c => (.text c.path, .text c.status.name.toList))
  { channel := .session,
    text := Json.write .spaced
      (.object [("run_id", .text log.runId), ("success", .bool (!b.hasFailures)), ("files", files),
        ("parse_errors", .int b.errors.length)]) }

/-- Writes the summary of a batch. Answers where it is. -/
def writeSummary (log : RunLog) (b : Batch) : Act Host Text := do
  Host.alter (·.writeFile log.summaryAt (Utf8.encode (log.summary b)))
  Act.note (log.summaryNote b)
  return log.summaryAt.shown

end RunLog

end Emend
