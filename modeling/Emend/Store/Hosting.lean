import Emend.Act
import Emend.Data.Json
import Emend.Data.Literal

/-!
# Hosting services

A hosting service keeps the files of a repository and changes them one commit at a time. Every version
of a file has an identifier, and a change of a file names the version it is meant for. `Hosting` is
what a store asks of such a service; `Remote` is a service in memory that records the requests it
receives and can be told to refuse them.
-/

namespace Emend

/-- A refusal of the service. -/
inductive HostingFault where
  /-- There is no such file. -/
  | unknownObject
  /-- The service answered with a status and some data. -/
  | refused (status : Int) (data : Value)

/-- What the service has at a path. -/
inductive HostedContent where
  | directory
  | file (bytes : Bytes) (version : Text)

/-- The version and the commit that a change of a file made. -/
structure HostedCommit where
  version : Text
  commit : Text

/-- What a store asks of a hosting service in a state of type `ρ`. A revision or branch that is absent
means the default branch. -/
structure Hosting (ρ : Type) where
  getContents (path : Text) (ref : Option Text) : ρ → Except HostingFault HostedContent × ρ
  createFile (path message text : Text) (branch : Option Text) :
    ρ → Except HostingFault HostedCommit × ρ
  updateFile (path message text version : Text) (branch : Option Text) :
    ρ → Except HostingFault HostedCommit × ρ
  deleteFile (path message version : Text) (branch : Option Text) : ρ → Except HostingFault Unit × ρ

namespace HostingFault

/-- The status of the answer. -/
def status : HostingFault → Int
  | unknownObject => 404
  | refused s _ => s

/-- The data of the answer. -/
def data : HostingFault → Value
  | unknownObject => .null
  | refused _ d => d

/-- The answer as a whole. -/
def answer (f : HostingFault) : Text :=
  match f.data with
  | .null => Text.ofInt f.status
  | d => Text.ofInt f.status ++ ' ' :: Json.write .spacedAscii d

/-- The refusal in words: the status with the message in the data, or else the answer as a whole. -/
def message (f : HostingFault) : Text :=
  let told := (f.data.field? "message").getD .null
  "HTTP ".toList ++ Text.ofInt f.status ++ ": ".toList ++
    (if told.isVoid then f.answer else told.shown)

end HostingFault

/-! ## A service in memory -/

/-- The requests of a service. -/
inductive HostingMethod where
  | getContents
  | createFile
  | updateFile
  | deleteFile
  deriving DecidableEq, Repr

namespace HostingMethod

/-- Every request. -/
def all : List HostingMethod := [getContents, createFile, updateFile, deleteFile]

/-- The request's name. -/
def name : HostingMethod → String
  | getContents => "get_contents"
  | createFile => "create_file"
  | updateFile => "update_file"
  | deleteFile => "delete_file"

/-- The request of that name. -/
def ofName? (t : Text) : Option HostingMethod := all.find? (·.name.toList = t)

end HostingMethod

/-- A request that a service received. -/
structure HostingCall where
  method : HostingMethod
  path : Text
  message : Option Text := none
  version : Option Text := none
  ref : Option Text := none
  deriving DecidableEq, Repr

/-- A version of a file. -/
structure HostedFile where
  bytes : Bytes
  version : Text

/-- A repository in memory. It does not tell its commits apart. -/
structure Remote where
  files : List (Text × HostedFile) := []
  directories : List Text := []
  calls : List HostingCall := []
  /-- What a request is refused with. -/
  refusals : List (HostingMethod × Int × Value) := []

namespace Remote

/-- The file at a path. -/
def get? (r : Remote) (path : Text) : Option HostedFile := r.files.lookup path

/-- The repository with a file at a path. -/
def put (r : Remote) (path : Text) (f : HostedFile) : Remote :=
  { r with files := (path, f) :: r.files.filter (·.1 != path) }

/-- The repository without a file at a path. -/
def erase (r : Remote) (path : Text) : Remote :=
  { r with files := r.files.filter (·.1 != path) }

/-- The repository that refuses a request from now on. -/
def setRefusal (r : Remote) (m : HostingMethod) (status : Int) (data : Value) : Remote :=
  { r with refusals := (m, status, data) :: r.refusals.filter (·.1 != m) }

/-- Records a request and carries it out, unless it is refused. -/
def receive {α : Type} (c : HostingCall) (act : Remote → Except HostingFault α × Remote)
    (r : Remote) : Except HostingFault α × Remote :=
  let r := { r with calls := r.calls ++ [c] }
  match r.refusals.lookup c.method with
  | some (status, data) => (.error (.refused status data), r)
  | none => act r

/-- The identifier of every commit. -/
def commitId : Text := "c0ffee".toList

/-- The identifier of the version that the latest request makes. -/
def nextVersion (r : Remote) : Text := "sha-".toList ++ Text.ofNat r.calls.length

/-- The refusal of a change that is meant for another version. -/
def versionMismatch : HostingFault :=
  .refused 409 (.object [("message", .text "sha does not match".toList)])

/-- Stores a new version of a file. -/
def save (path text : Text) (r : Remote) : Except HostingFault HostedCommit × Remote :=
  let version := r.nextVersion
  (.ok ⟨version, commitId⟩, r.put path ⟨Utf8.encode text, version⟩)

/-- The file at the path is of that version. -/
def isAt (r : Remote) (path version : Text) : Bool :=
  (r.get? path).any fun f => f.version == version

/-- The repository as a service. -/
def hosting : Hosting Remote where
  getContents path ref := receive { method := .getContents, path, ref } fun r =>
    if r.directories.contains path then (.ok .directory, r)
    else match r.get? path with
      | some f => (.ok (.file f.bytes f.version), r)
      | none => (.error .unknownObject, r)
  createFile path message text branch :=
    receive { method := .createFile, path, message, ref := branch } (save path text)
  updateFile path message text version branch :=
    receive { method := .updateFile, path, message, version, ref := branch } fun r =>
      if r.isAt path version then save path text r else (.error versionMismatch, r)
  deleteFile path message version branch :=
    receive { method := .deleteFile, path, message, version, ref := branch } fun r =>
      if r.isAt path version then (.ok (), r.erase path) else (.error versionMismatch, r)

end Remote

end Emend
