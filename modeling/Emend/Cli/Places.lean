import Emend.Cli.Run

/-!
# The places of a command

A command reads its configuration and its message from two places, `sources`, and these tell where
else it works: the root of the store with the files that the message names, the history, and the logs.
Those are its `targets`. Nothing stands in the way of a command that a disk with these places lacks.
-/

namespace Emend.Cli

/-- Where a command finds its message. -/
def Command.message? : Command → Option Text
  | parse m | preview m _ _ | apply m _ _ => some m
  | history _ _ _ => none

/-- Where a command finds its configuration and its message. -/
def Arguments.sources (cwd : Path) (a : Arguments) : List Location :=
  (a.config.getD Config.standardFile :: a.command.message?.toList).map (Location.ofText cwd)

/-- The places below a root that a message names. -/
def messagePlaces (c : Config) (root : Path) (message : Text) : List Location :=
  (Message.parse c.fileTag message).instructions.map fun i => .ofPath (Path.resolve root i.path)

/-- The store's root and the places below it that a message names. -/
def storePlaces (d : Disk) (c : Config) (message : Text) : List Location :=
  match LocalFiles.rootPlace d c.root with
  | .ok root => .ofPath root :: messagePlaces c root message
  | .error _ => []

/-- Where a command works once its configuration and its message are known. -/
def Arguments.targets (d : Disk) (a : Arguments) (c : Config) (message : Text) : List Location :=
  storePlaces d c message ++
    ([a.logsRoot c] ++ c.historyFile.toList).map (Location.ofText d.cwd)

/-- The configuration of a command and its message, on a disk that holds their places. -/
def Arguments.read (a : Arguments) (input : Bytes) (h : Host) : Except Failure (Config × Text) := do
  let c ← (a.resolve h).result
  match a.command.message? with
  | none => return (c, [])
  | some source => return (c, ← (readMessage input source h).result)

end Emend.Cli
