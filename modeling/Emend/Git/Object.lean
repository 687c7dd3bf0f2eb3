import Emend.Digest.Sha1
import Emend.Disk.Path
import Emend.Text.Blank
import Emend.Text.Quoted

/-!
# Objects of a repository

A snapshot lists the files of a tree by path with the identifiers of their bytes. A commit records a
snapshot, its parents, who made it and why. Both are identified by the digest of their stored form;
in that form a tree holds its direct entries only, ordered by name, a directory counting as its name
with a slash behind it. A file and a directory may have one name; who looks for it finds the file.
-/

namespace Emend.Git

/-- The identifier of an object, in hexadecimal digits. -/
abbrev ObjectId := Text

/-- The files of a tree by path. -/
abbrev Snapshot := List (Text × ObjectId)

namespace Snapshot

/-- The snapshot with a file. -/
def put (s : Snapshot) (path : Text) (id : ObjectId) : Snapshot :=
  (path, id) :: s.filter (·.1 != path)

/-- Every file of the first snapshot is one of the second. -/
def within (s t : Snapshot) : Bool := s.all fun (p, id) => t.lookup p == some id

/-- The snapshots list the same files. -/
def agrees (s t : Snapshot) : Bool := s.within t && t.within s

end Snapshot

/-- The bytes that hexadecimal digits spell. -/
def idBytes : ObjectId → Bytes
  | a :: b :: t => ((Text.digits? 16 [a, b]).getD 0).toUInt8 :: idBytes t
  | _ => []

/-- A direct entry of a tree. -/
structure TreeEntry where
  name : Text
  isDirectory : Bool
  id : Bytes

/-- The key by which the entries of a tree are ordered. -/
def TreeEntry.key (e : TreeEntry) : Text := if e.isDirectory then e.name ++ ['/'] else e.name

/-- The stored form of an entry. -/
def TreeEntry.bytes (e : TreeEntry) : Bytes :=
  Utf8.encode ((if e.isDirectory then "40000 " else "100644 ").toList ++ e.name ++ ['\x00']) ++ e.id

/-- The stored form of the tree of files given by the names that lead to them, `depth` names at
most. -/
def treeBytes : (depth : Nat) → List (Path × ObjectId) → Bytes
  | 0, _ => []
  | depth + 1, files =>
    let names := (files.filterMap (·.1.head?)).eraseDups
    let entries := names.flatMap fun n =>
      let under := files.filterMap fun (p, id) => match p with
        | m :: rest => if m = n then some (rest, id) else none
        | [] => none
      let inside := under.filter fun (p, _) => !p.isEmpty
      let file := (under.lookup []).map fun id => TreeEntry.mk n false (idBytes id)
      let directory := if inside.isEmpty then [] else
        [TreeEntry.mk n true (Digest.objectId "tree" (treeBytes depth inside)).bytes]
      file.toList ++ directory
    (entries.mergeSort fun a b => Text.isInOrder a.key b.key).flatMap TreeEntry.bytes

/-- The files of a snapshot by the names that lead to them. -/
def Snapshot.byNames (s : Snapshot) : List (Path × ObjectId) :=
  s.map fun (p, id) => (Text.splitOn '/' p, id)

/-- The files below a directory of a snapshot, by the paths from there. -/
def Snapshot.below (s : Snapshot) (directory : Path) : Snapshot :=
  s.byNames.filterMap fun (p, id) => match Path.below? directory p with
    | some (n :: ns) => some (Path.relativeText (n :: ns), id)
    | _ => none

/-- The directories of a snapshot, its top among them. -/
def Snapshot.directories (s : Snapshot) : List Path :=
  ([] :: s.byNames.flatMap fun (p, _) =>
    (List.range p.length).map fun n => p.take n).eraseDups

/-- The stored form of a snapshot. -/
def Snapshot.bytes (s : Snapshot) : Bytes :=
  treeBytes ((s.byNames.map (·.1.length)).foldl max 0) s.byNames

/-- The identifier of the whole tree. -/
def Snapshot.treeId (s : Snapshot) : ObjectId := (Digest.objectId "tree" s.bytes).hex

/-- Someone who makes commits. -/
structure Person where
  name : Text
  email : Text
  deriving DecidableEq, Repr, Inhabited

/-- What no name and no address of a person may hold: it would be taken for a part of the record. -/
def Person.isDelimiter (c : Char) : Bool := c = '<' || c = '>' || c = '\n'

/-- Refuses a person who cannot be recorded. -/
def Person.check (p : Person) : Except Text Unit :=
  match [p.name, p.email].find? (·.any isDelimiter) with
  | none => .ok ()
  | some t => .error ("Commit identity ".toList ++ Text.quoted t ++
      " must not contain '<', '>' or a line feed".toList)

/-- The person as a record tells: blanks behind the name are not told from the one in front of the
address. -/
def Person.recorded (p : Person) : Person := { p with name := p.name.stripEnd }

/-- A recorded snapshot. -/
structure Commit where
  tree : Snapshot
  parents : List ObjectId
  author : Person
  committer : Person
  /-- When the commit was made, in its stored form. -/
  time : Text
  message : Text
  deriving DecidableEq, Repr

/-- A line of a commit's stored form. -/
def headerLine (key : String) (value : Text) : Text := key.toList ++ ' ' :: value ++ ['\n']

/-- The person with the time, as a commit records them. -/
def Person.signature (p : Person) (time : Text) : Text :=
  p.name ++ " <".toList ++ p.email ++ "> ".toList ++ time

/-- The identifier of a commit. -/
def Commit.id (c : Commit) : ObjectId :=
  let lines := headerLine "tree" c.tree.treeId ++ c.parents.flatMap (headerLine "parent") ++
    headerLine "author" (c.author.signature c.time) ++
    headerLine "committer" (c.committer.signature c.time)
  (Digest.objectId "commit" (Utf8.encode (lines ++ '\n' :: c.message))).hex

/-! ## Objects of every kind -/

/-- What a repository stores. -/
inductive Object where
  | commit (id : ObjectId) (c : Commit)
  /-- A tree. One that was found by its identifier has no place, and no names lead on from it. -/
  | tree (s : Snapshot) (hasPlace : Bool)
  | blob (id : ObjectId)
  deriving DecidableEq, Repr

namespace Object

/-- The kind of an object by name. -/
def kind : Object → String
  | commit _ _ => "commit"
  | tree _ _ => "tree"
  | blob _ => "blob"

/-- The identifier of an object. -/
def id : Object → ObjectId
  | commit id _ => id
  | tree s _ => s.treeId
  | blob id => id

/-- The object as reports show it. -/
def shown (o : Object) : Text :=
  let name := match o with
    | commit _ _ => "Commit"
    | tree _ _ => "Tree"
    | blob _ => "Blob"
  "<git.".toList ++ name.toList ++ " \"".toList ++ o.id ++ "\">".toList

end Object

/-- The trees of a snapshot: its own and those of its directories. -/
def Snapshot.trees (s : Snapshot) : List Object :=
  s.directories.map fun d => .tree (s.below d) false

/-- What a snapshot has under a name at its top. -/
def Snapshot.entry? (s : Snapshot) (name : Text) : Option Object :=
  match s.lookup name with
  | some id => some (.blob id)
  | none => match s.below [name] with
    | [] => none
    | inside => some (.tree inside true)

/-- What names lead to from the top of a snapshot, or else the name that is missing there. Where a file
stands on the way the path as a whole, `whole`, is missing. -/
def Snapshot.follow (whole : Text) : Snapshot → List Text → Except Text Object
  | s, [] => .ok (.tree s true)
  | s, n :: ns => match s.entry? n with
    | none => .error n
    | some (.tree inside _) => inside.follow whole ns
    | some o => if ns.isEmpty then .ok o else .error whole

/-- What a snapshot has at a path, or else the name that is missing there. -/
def Snapshot.at? (s : Snapshot) (path : Text) : Except Text Object :=
  s.follow path (Text.splitOn '/' path)

end Emend.Git
