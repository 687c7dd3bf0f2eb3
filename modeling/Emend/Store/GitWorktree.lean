import Emend.Git.Layout
import Emend.Git.Pathspec
import Emend.Git.Reserved
import Emend.Git.Revision
import Emend.Store.LocalFiles

/-!
# A working tree as a store

The local files below the top of a repository's working tree. Every write and delete is listed in the
repository's index, and `commit` records the index. A fetch at a revision reads what was committed
there instead of the file on the disk; tokens are identifiers of contents either way.

The file on the disk comes first: when the repository does not take a path, or does not find a deleted
one in its index, the file has been written or deleted all the same.
-/

namespace Emend

/-- A disk with a repository on it. -/
structure Worktree where
  disk : Disk
  repository : Git.Repository
  deriving Repr

namespace Worktree

/-- The repository with its own files as they are now. -/
def current (w : Worktree) : Git.Repository := w.repository.readBack w.disk

/-- The repository with its own files as they are now. -/
def inspect : Act Worktree Git.Repository := do return (← Act.get).current

/-- Runs an action on the disk. -/
def onDisk {α : Type} (x : Act Disk α) : Act Worktree α :=
  x.focus (·.disk) fun d w => { w with disk := d }

end Worktree

/-- The local files below the top of a repository. -/
structure GitWorktree where
  files : LocalFiles
  deriving DecidableEq, Repr

namespace GitWorktree

/-- The working tree whose top is the directory that a text names. -/
def atRoot (d : Disk) (r : Option Git.Repository) (t : Text) : Except Failure GitWorktree := do
  let files ← LocalFiles.atRoot d t
  let shown := files.root.text
  let refusal (m : Text) : Except Failure GitWorktree := .error (.store ⟨m, none⟩)
  match r with
  | none =>
    refusal ("Failed to open git repository at ".toList ++ shown ++ ": ".toList ++ shown)
  | some r =>
    if files.root = r.top then return ⟨files⟩
    else if files.root = r.top ++ [Git.metadataName] then
      refusal (shown ++ " is not the top level of its git repository (".toList ++ r.top.text ++
        ").".toList)
    else refusal ("Failed to open git repository at ".toList ++ shown ++ ": ".toList ++ shown)

/-- The names that lead from the top to the place that a path means. -/
def names (s : GitWorktree) (path : Text) : Except Failure Path := do
  let place ← s.files.resolve path
  return (Path.below? s.files.root place).getD []

/-- The bytes of an object, and its identifier. Those of a directory are its stored form. -/
def contents? (r : Git.Repository) : Git.Object → Option (Bytes × Git.ObjectId)
  | .blob id => (r.blobs.lookup id).map (·, id)
  | .tree s hasPlace => some (s.bytes, (Git.Object.tree s hasPlace).id)
  | .commit _ _ => none

/-- The bytes that a commit has at a path, and their identifier. -/
def committed? (r : Git.Repository) (c : Git.Commit) (names : Path) :
    Option (Bytes × Git.ObjectId) :=
  if names.isEmpty then none
  else (c.tree.at? (Path.relativeText names)).toOption.bind (contents? r)

/-- The commit that a revision names. `path` is what is to be fetched from it. -/
def commitAt (r : Git.Repository) (path ref : Text) : Except Failure Git.Commit :=
  match r.revision ref with
  | .ok c => .ok c
  | .error (.unknown reason) =>
    .error (.store ⟨"Unknown revision '".toList ++ ref ++ "': ".toList ++ reason, some path⟩)
  | .error e => .error (.revision e)

/-- The text that was committed at a revision. -/
def fetchAt (s : GitWorktree) (path ref : Text) : Act Worktree (Option Fetched) := do
  let names ← Act.ofExcept (s.names path)
  let r ← Worktree.inspect
  let c ← Act.ofExcept (commitAt r path ref)
  match committed? r c names with
  | none =>
    Act.note (storeNote ("fetch ".toList ++ path ++ '@' :: ref ++ ": not found".toList))
    return none
  | some (bs, id) =>
    let text ← LocalFiles.decodeText path (" at ".toList ++ ref) bs
    Act.note (storeNote ("fetch ".toList ++ path ++ '@' :: ref ++ ": ".toList ++
      LocalFiles.byteCount bs))
    return some ⟨text, id⟩

/-- The text of the file at a path: on the disk, or at a revision. -/
def fetch (s : GitWorktree) (path : Text) (ref : Option Text) : Act Worktree (Option Fetched) :=
  match ref with
  | none => Worktree.onDisk (s.files.fetch path)
  | some ref => s.fetchAt path ref

/-- Changes the repository. -/
def changeRepository (f : Git.Repository → Git.Repository) : Act Worktree Unit :=
  Act.modify fun w => { w with repository := f w.repository }

/-- Fails with a reason that is not the store's. -/
def orFail (r : Except Text Unit) : Act Worktree Unit :=
  Act.ofExcept (r.mapError fun m => .unacceptable m none)

/-- Writes the file at a path and lists it in the index. -/
def write (s : GitWorktree) (path text : Text) (token : Option Token) : Act Worktree Token := do
  let made ← Worktree.onDisk (s.files.write path text token)
  let listed := Path.relativeText (← Act.ofExcept (s.names path))
  orFail (Git.checkPath listed)
  changeRepository (·.stage listed (Utf8.encode text))
  return made

/-- The report of a removal from the index that did not work. -/
def removalReport (path listed reason : Text) : Text :=
  "Failed to stage removal of '".toList ++ path ++
    "': Cmd('git') failed due to: exit code(128)\n  cmdline: git rm --cached -- ".toList ++ listed ++
    "\n  stderr: 'fatal: ".toList ++ reason ++ ['\'']

/-- Takes a path out of the index, and with it whatever else the path picks as a pathspec. -/
def unlist (path listed : Text) : Act Worktree Unit := do
  let r := (← Act.get).repository
  match r.index.removal r.top listed with
  | .ok index => changeRepository fun r => { r with index }
  | .error reason => Act.refuse (removalReport path listed reason) (some path)

/-- Deletes the file at a path and takes it out of the index if it is listed there. -/
def delete (s : GitWorktree) (path : Text) (token : Option Token) : Act Worktree Unit := do
  let listed := Path.relativeText (← Act.ofExcept (s.names path))
  let isListed := ((← Act.get).repository.index.lookup listed).isSome
  Worktree.onDisk (s.files.delete path token)
  if isListed then unlist path listed

/-- The person of that name and address, if both are given. -/
def person? (name email : Option Text) : Option Git.Person :=
  match name.getD [], email.getD [] with
  | [], _ => none
  | _, [] => none
  | n, e => some ⟨n, e⟩

/-- Commits what is listed in the index. -/
def commit (message : Text) (person : Option Git.Person) : Act Worktree Git.ObjectId := do
  let r ← Worktree.inspect
  if !r.hasStaged then Act.refuse "No staged changes to commit.".toList none
  else
    changeRepository Git.Repository.storeTree
    person.forM fun p => orFail p.check
    let (id, r) := r.commit message person
    Act.set ⟨r.writeBack (← Act.get).disk, r⟩
    Act.note (storeNote ("commit ".toList ++ id.take 10 ++ ": ".toList ++ message))
    return id

/-- The working tree as a store. -/
def store (s : GitWorktree) : Store Worktree where
  describe := "git:".toList ++ s.files.root.text
  fetch := s.fetch
  write path text token _ _ := s.write path text token
  delete path token _ _ := s.delete path token

end GitWorktree

end Emend
