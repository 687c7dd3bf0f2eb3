import Emend.Data.Assoc
import Emend.Disk.Path
import Emend.Failure

/-!
# Disks

A disk holds files and directories by path. There are no links, so a path that runs through
directories only leads to one place. The operations refuse what an operating system refuses: a missing
or wrong kind of entry on the way, and names that are too long.

A file can be held open to be added to. A stream follows its file, not the path: once the file has been
removed, what is added is lost, also if another file has come to the same path.
-/

namespace Emend

/-- What stands at a path. -/
inductive Entry where
  | file (bytes : Bytes)
  | directory
  deriving DecidableEq, Repr

/-- Files and directories, and the directory in which the program runs. The root directory is always
there. -/
structure Disk where
  entries : List (Path × Entry)
  cwd : Path
  /-- What `~` stands for. -/
  home : Path
  /-- The files that are held open, by the names that the streams to them go by. -/
  streams : List (Text × Path) := []
  deriving Repr

/-- A place as it is named to the disk: the names to follow from a directory. -/
structure Location where
  start : Path
  /-- The slashes before the first name: none if the place is named relative to a directory. -/
  slashes : Nat
  names : List Text
  deriving DecidableEq, Repr

namespace Location

/-- The place at a path. -/
def ofPath (p : Path) : Location := ⟨[], 1, p⟩

/-- The slashes that are kept of those at the front of a text: exactly two are told from one, and more
are as one. -/
def keptSlashes (t : Text) : Nat :=
  match t with
  | '/' :: '/' :: '/' :: _ => 1
  | '/' :: '/' :: _ => 2
  | '/' :: _ => 1
  | _ => 0

/-- The place that a text names, relative to `cwd`. -/
def ofText (cwd : Path) (t : Text) : Location where
  start := if Path.isAbsolute t then [] else cwd
  slashes := keptSlashes t
  names := (Text.splitOn '/' t).filter (!Path.isHere ·)

/-- The place as it is shown in reports. -/
def shown (l : Location) : Text :=
  match List.replicate l.slashes '/' ++ Path.relativeText l.names with
  | [] => ['.']
  | t => t

/-- The directory that holds the place. -/
def parent (l : Location) : Location := { l with names := l.names.dropLast }

/-- No disk has a name with a null character. -/
def checkNames (l : Location) : Except Failure Unit :=
  if l.names.any (·.contains '\x00') then .error (.refuse "embedded null byte") else .ok ()

end Location

namespace Disk

/-- The most bytes of a name. -/
def maxName : Nat := 255

/-- The most bytes of a path. -/
def maxPath : Nat := 4095

/-- What stands at a path. -/
def get? (d : Disk) (p : Path) : Option Entry :=
  if p.isEmpty then some .directory else d.entries.lookup p

/-- The disk with an entry at a path. -/
def put (d : Disk) (p : Path) (e : Entry) : Disk :=
  { d with entries := (p, e) :: d.entries.filter (·.1 != p) }

/-- The disk without an entry at a path. -/
def erase (d : Disk) (p : Path) : Disk :=
  { d with entries := d.entries.filter (·.1 != p), streams := d.streams.filter (·.2 != p) }

/-- The disk without what stands at a path and below. -/
def eraseBelow (d : Disk) (p : Path) : Disk :=
  { d with entries := d.entries.filter (!p.isPrefixOf ·.1),
           streams := d.streams.filter (!p.isPrefixOf ·.2) }

/-- Follows names from a place. All but the last have to lead to directories. -/
def walk (d : Disk) (place : Path) : List Text → Except OsFault Path
  | [] => .ok place
  | n :: ns =>
    match d.get? place with
    | none => .error .noEntry
    | some (.file _) => .error .notDirectory
    | some .directory =>
      if maxName < (Utf8.encode n).length then .error .nameTooLong
      else if Path.isUp n then d.walk place.dropLast ns
      else d.walk (place ++ [n]) ns

/-- The path of a location and what stands there. -/
def find (d : Disk) (l : Location) : Except OsFault (Path × Option Entry) :=
  if maxPath < (Utf8.encode l.shown).length then .error .nameTooLong
  else do
    let p ← d.walk l.start l.names
    return (p, d.get? p)

/-- What stands at a location. A way that does not lead there means that nothing does. -/
def look (d : Disk) (l : Location) : Except OsError (Option Entry) :=
  match d.find l with
  | .ok (_, e) => .ok e
  | .error .nameTooLong => .error ⟨.nameTooLong, l.shown⟩
  | .error _ => .ok none

/-- Something stands at the location. -/
def isThere (d : Disk) (l : Location) : Except OsError Bool := (·.isSome) <$> d.look l

/-- The bytes of a file. -/
def readFile (d : Disk) (l : Location) : Except OsError Bytes :=
  match d.find l with
  | .error e => .error ⟨e, l.shown⟩
  | .ok (_, none) => .error ⟨.noEntry, l.shown⟩
  | .ok (_, some .directory) => .error ⟨.isDirectory, l.shown⟩
  | .ok (_, some (.file bs)) => .ok bs

/-- Makes the bytes those of the file at a location, which need not exist. -/
def writeFile (d : Disk) (l : Location) (bs : Bytes) : Except OsError Disk :=
  match d.find l with
  | .error e => .error ⟨e, l.shown⟩
  | .ok (_, some .directory) => .error ⟨.isDirectory, l.shown⟩
  | .ok (p, _) => .ok (d.put p (.file bs))

/-- Adds bytes at the end of a file, which need not exist. -/
def appendFile (d : Disk) (l : Location) (bs : Bytes) : Except OsError Disk :=
  match d.find l with
  | .error e => .error ⟨e, l.shown⟩
  | .ok (_, some .directory) => .error ⟨.isDirectory, l.shown⟩
  | .ok (p, some (.file before)) => .ok (d.put p (.file (before ++ bs)))
  | .ok (p, none) => .ok (d.put p (.file bs))

/-- Closes the stream of a name. -/
def closeStream (d : Disk) (name : Text) : Disk :=
  { d with streams := d.streams.filter (·.1 != name) }

/-- Holds the file at a location open, which need not exist, for a stream of that name. -/
def openStream (d : Disk) (name : Text) (l : Location) : Except OsError Disk := do
  let d ← d.appendFile l []
  let (p, _) ← (d.find l).mapError (⟨·, l.shown⟩)
  return { d with streams := (name, p) :: d.streams }

/-- Adds bytes to the file of a stream. Without one they are lost. -/
def addTo (d : Disk) (name : Text) (bs : Bytes) : Disk :=
  match d.streams.lookup name with
  | none => d
  | some p => match d.get? p with
    | some (.file before) => d.put p (.file (before ++ bs))
    | _ => d

/-- Removes a file. -/
def removeFile (d : Disk) (l : Location) : Except OsError Disk :=
  match d.find l with
  | .error e => .error ⟨e, l.shown⟩
  | .ok (_, none) => .error ⟨.noEntry, l.shown⟩
  | .ok (_, some .directory) => .error ⟨.isDirectory, l.shown⟩
  | .ok (p, some (.file _)) => .ok (d.erase p)

/-- Makes a directory where nothing stands yet. -/
def makeDir (d : Disk) (l : Location) : Except OsError Disk :=
  match d.find l with
  | .error e => .error ⟨e, l.shown⟩
  | .ok (_, some _) => .error ⟨.alreadyExists, l.shown⟩
  | .ok (p, none) => .ok (d.put p .directory)

/-- Makes a directory unless it is there. Answers the disk that is left in either case. -/
def ensureDir (d : Disk) (l : Location) : Except OsError Unit × Disk :=
  match d.makeDir l with
  | .ok d => (.ok (), d)
  | .error e => match d.find l with
    | .ok (_, some .directory) => (.ok (), d)
    | _ => (.error e, d)

/-- Makes a directory, and those above it that are missing, `above` of them at most. -/
def makeDirsUpTo (d : Disk) (l : Location) : (above : Nat) → Except OsError Unit × Disk
  | 0 => d.ensureDir l
  | above + 1 => match d.ensureDir l with
    | (.ok (), d) => (.ok (), d)
    | (.error e, d) =>
      if e.fault = .noEntry then
        match d.makeDirsUpTo l.parent above with
        | (.ok (), d) => d.ensureDir l
        | (.error e, d) => (.error e, d)
      else (.error e, d)

/-- Makes a directory, and those above it, where they are missing. Those that were made stay if one
could not be made. -/
def makeDirs (d : Disk) (l : Location) : Except OsError Unit × Disk := d.makeDirsUpTo l l.names.length

/-- The files below a directory with the names that lead to them, but for those in directories named
`hidden`. -/
def filesBelow (d : Disk) (root : Path) (hidden : Text) : List (Path × Bytes) :=
  d.entries.filterMap fun (p, e) =>
    match e, Path.below? root p with
    | .file bs, some rest => if rest.contains hidden then none else some (rest, bs)
    | _, _ => none

/-- Without streams nothing is added anywhere. -/
theorem addTo_of_streams_eq_nil (d : Disk) (name : Text) (bs : Bytes) (h : d.streams = []) :
    d.addTo name bs = d := by
  simp [addTo, h]

theorem get?_put_self (d : Disk) {p : Path} (e : Entry) (h : p ≠ []) :
    (d.put p e).get? p = some e := by
  simp [put, get?, h]

theorem get?_put_of_ne (d : Disk) {p q : Path} (e : Entry) (h : q ≠ p) :
    (d.put p e).get? q = d.get? q := by
  unfold put get?
  split
  · rfl
  · have : (q == p) = false := by simp [h]
    simp [List.lookup_cons, this, lookup_filter_ne _ h]

theorem get?_erase_self (d : Disk) {p : Path} (h : p ≠ []) : (d.erase p).get? p = none := by
  simp [erase, get?, h, lookup_filter_self]

theorem get?_erase_of_ne (d : Disk) {p q : Path} (h : q ≠ p) :
    (d.erase p).get? q = d.get? q := by
  simp [erase, get?, lookup_filter_ne _ h]

end Disk

end Emend
