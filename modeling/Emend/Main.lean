import Emend.Cli.Places
import Emend.Disk.Change
import Std.Time.DateTime.Timestamp

/-!
# The program

Takes the places that a command works on from the machine's disk, runs the command on them, and writes
back what it changed. The clock is read once. Repositories and hosting services are not connected
here, so the stores that need them refuse.
-/

namespace Emend.Program

/-- A service that cannot be reached. -/
def offline : Hosting Unit where
  getContents _ _ s := (.error unreachable, s)
  createFile _ _ _ _ s := (.error unreachable, s)
  updateFile _ _ _ _ _ s := (.error unreachable, s)
  deleteFile _ _ _ _ s := (.error unreachable, s)
where
  unreachable : HostingFault := .refused 503 (.object [("message", .text "not connected".toList)])

/-- The names in a text of the machine. -/
def pathOf (t : String) : Path := Path.resolve [] t.toList

/-- The text that the machine has for a path. -/
def nameOf (p : Path) : String := String.ofList (Path.text p)

/-- The bytes of an array. -/
def bytesOf (b : ByteArray) : Bytes := b.data.toList

/-- What stands at a path of the machine. -/
def entryAt (p : Path) : IO (Option Entry) := do
  let place := (← IO.currentDir) / nameOf p
  if ← place.isDir then return some .directory
  else if ← place.pathExists then return some (.file (bytesOf (← IO.FS.readBinFile place)))
  else return none

/-- The disk with what the machine has on the ways to some locations. -/
def take (d : Disk) (ls : List Location) : IO Disk :=
  (ls.flatMap Location.way).foldlM (fun d p => do
    if (d.get? p).isSome then return d
    else match ← entryAt p with
      | some e => return d.put p e
      | none => return d) d

/-- Puts an entry on the machine's disk. -/
def put (p : Path) : Entry → IO Unit
  | .directory => do IO.FS.createDirAll ((← IO.currentDir) / nameOf p)
  | .file bs => do IO.FS.writeBinFile ((← IO.currentDir) / nameOf p) ⟨bs.toArray⟩

/-- Does on the machine's disk what was done on a disk that was taken from it. -/
def store (older newer : Disk) : IO Unit := do
  for p in older.removed newer do
    IO.FS.removeFile ((← IO.currentDir) / nameOf p)
  for (p, e) in older.written newer do
    put p e

/-- All bytes of a stream. -/
partial def readAll (s : IO.FS.Stream) (before : ByteArray) : IO Bytes := do
  let b ← s.read 65536
  if b.isEmpty then return bytesOf before else readAll s (before ++ b)

/-- The current time, and identifiers that count from a random number. -/
def supply : IO Supply := do
  let now := (← Std.Time.Timestamp.now).toNanosecondsSinceUnixEpoch.val / 1000
  let start := (bytesOf (← IO.getRandomBytes 16)).foldl (fun n b => n * 256 + b.toNat) 0
  return { time := fun _ => ⟨now, some 0⟩,
           identifier := fun n => Text.hex 32 ((start + n) % Nat.pow 2 128) }

/-- An empty disk of the machine. -/
def emptyDisk : IO Disk := do
  let cwd := pathOf (← IO.currentDir).toString
  let home := pathOf ((← IO.getEnv "HOME").getD "/")
  take { entries := [], cwd, home } [.ofPath cwd]

/-- The host with the places of what was asked for, and the names of the environment that it needs. -/
def hostFor (input : Bytes) (h : Host) :
    Except Cli.UsageError Cli.Request → IO (Host × (Text → Option Text))
  | .ok (.run a) => do
    let h := { h with disk := ← take h.disk (a.sources h.disk.cwd) }
    match a.read input h with
    | .error _ => return (h, fun _ => none)
    | .ok (c, message) =>
      let token ← IO.getEnv (String.ofList c.tokenEnvVar)
      let h := { h with disk := ← take h.disk (a.targets h.disk c message) }
      return (h, fun n => if n = c.tokenEnvVar then token.map String.toList else none)
  | _ => return (h, fun _ => none)

/-- Prints lines. -/
def print (s : IO.FS.Stream) (ls : List Text) : IO Unit :=
  s.putStr (String.ofList (Cli.printed ls))

/-- Runs the program on an argument list. Answers the code with which it ends. -/
def run (args : List Text) : IO UInt32 := do
  let input ← if args.contains ['-'] then readAll (← IO.getStdin) .empty else pure []
  let (host, environment) ←
    hostFor input { disk := ← emptyDisk, supply := ← supply } (Cli.Request.ofList args)
  let world : World Unit := { host, remote := (), environment }
  let reply := Cli.run offline input args world
  store host.disk reply.state.host.disk
  match reply.result with
  | .ok report =>
    print (← IO.getStdout) report.output
    print (← IO.getStderr) (report.complaints ++ report.ending.lines)
    return report.ending.code.number.toUInt32
  | .error e =>
    print (← IO.getStderr) ["error: ".toList ++ e.message]
    return 1

end Emend.Program

/-- Runs the program. -/
def main (args : List String) : IO UInt32 := Emend.Program.run (args.map String.toList)
