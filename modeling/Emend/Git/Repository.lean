import Emend.Git.Reference

/-!
# Repositories

A repository holds file contents, trees and commits, an index that lists the files of the next commit,
and files of its own, among them the references. `HEAD` is the reference that tells which branch commits
are made on, or else holds the last commit itself. Every commit is the next place of `HEAD`, so the list
of commits tells also where `HEAD` was before.
-/

namespace Emend.Git

/-- A repository and its working tree. -/
structure Repository where
  /-- The top directory of the working tree. -/
  top : Path
  blobs : List (ObjectId × Bytes) := []
  /-- The trees that were taken in, the last one first. -/
  trees : List Snapshot := []
  /-- The commits, the last one first. -/
  commits : List (ObjectId × Commit) := []
  index : Snapshot := []
  ownFiles : OwnFiles := []
  /-- Who makes commits when nobody is named. -/
  author : Person
  committer : Person
  /-- The time of every commit made here, in its stored form. -/
  time : Text
  /-- The seconds since 1970 at which the moves of references are logged. -/
  logTime : Nat := 1780000000
  deriving Repr, Inhabited

namespace Repository

/-! ## References -/

/-- The name of the reference that commits are made on. -/
def headName : Text := "HEAD".toList

/-- What stands in front of the name of a branch in the name of its reference. -/
def branchFront : Text := "refs/heads/".toList

/-- The identifier that a reference leads to. -/
def dereference (r : Repository) (name : Text) : Except ReferenceFault ObjectId :=
  Reference.dereference r.ownFiles name Reference.maxChain

/-- The reference that commits are made on by name: that of a branch, or `HEAD` itself. -/
def target (r : Repository) : Text :=
  match Reference.read r.ownFiles headName with
  | .ok (.reference name) => name
  | _ => headName

/-- The name of the branch that commits are made on. -/
def branch (r : Repository) : Text :=
  if branchFront.isPrefixOf r.target then r.target.drop branchFront.length else r.target

/-- The last commit, if there is one, and its identifier. -/
def head? (r : Repository) : Option (ObjectId × Commit) := do
  let id ← (r.dereference headName).toOption
  return (id, ← r.commits.lookup id)

/-! ## The index -/

/-- Takes bytes into the repository and lists them in the index under a path. -/
def stage (r : Repository) (path : Text) (bs : Bytes) : Repository :=
  let id := Digest.blobId bs
  { r with blobs := (id, bs) :: r.blobs, index := r.index.put path id }

/-- The index differs from the last commit, or there is no commit yet. -/
def hasStaged (r : Repository) : Bool :=
  match r.head? with
  | none => true
  | some (_, c) => !r.index.agrees c.tree

/-- Takes the tree of the index in. -/
def storeTree (r : Repository) : Repository := { r with trees := r.index :: r.trees }

/-! ## Commits -/

/-- The names that lead to the file of a reference. -/
def fileNames (reference : Text) : Path := Text.splitOn '/' reference

/-- The line of a log that tells of a move from one commit to another, and why. -/
def logLine (r : Repository) (old new : ObjectId) (c : Commit) (reason : Text) : Text :=
  let time := Text.ofNat r.logTime ++ " +0000".toList
  old ++ ' ' :: new ++ ' ' :: c.committer.signature time ++ '\t' :: reason.takeWhile (· != '\n')

/-- The identifier that stands for no object. -/
def noId : ObjectId := List.replicate 40 '0'

/-- Makes `HEAD` lead to a commit, by way of the branch that it names. Both keep a log of their moves. -/
def moveHead (r : Repository) (id : ObjectId) (c : Commit) : Repository :=
  let log (reference line : Text) (fs : OwnFiles) : OwnFiles :=
    fs.addLine ("logs".toList :: fileNames reference) line
  let (branchLine, headLine) := match r.head? with
    | some (old, _) => (r.logLine old id c c.message, r.logLine old id c c.message)
    | none => (r.logLine noId id c ("commit (initial): ".toList ++ c.message),
        r.logLine id id c ("commit: Switching to ".toList ++ r.branch))
  let fs := r.ownFiles.put (fileNames r.target) (Utf8.encode (id ++ ['\n']))
  let fs := if r.target = headName then fs else log r.target branchLine fs
  { r with ownFiles := log headName headLine fs }

/-- Commits the index. Answers the identifier of the commit. -/
def commit (r : Repository) (message : Text) (person : Option Person) : ObjectId × Repository :=
  let c : Commit :=
    { tree := r.index, parents := (r.head?.map (·.1)).toList, author := person.getD r.author,
      committer := person.getD r.committer, time := r.time, message }
  let id := c.id
  (id, { r.storeTree.moveHead id c with commits := (id, c) :: r.commits })

/-! ## Objects -/

/-- The parents of a commit. -/
def parents (r : Repository) (id : ObjectId) : List ObjectId :=
  ((r.commits.lookup id).map (·.parents)).getD []

/-- Everything that is stored, by identifier. -/
def objects (r : Repository) : List (ObjectId × Object) :=
  r.commits.map (fun (id, c) => (id, .commit id c)) ++
    (r.trees.flatMap Snapshot.trees).map (fun o => (o.id, o)) ++
    r.blobs.map (fun (id, _) => (id, .blob id))

/-- The object whose identifier begins with hexadecimal digits, if there is just one. -/
def withDigits? (r : Repository) (digits : Text) : Option Object :=
  let lower := digits.map Char.toLower
  match r.objects.filter fun (id, _) => lower.isPrefixOf id with
  | (id, o) :: others => if others.all (·.1 = id) then some o else none
  | [] => none

end Repository

end Emend.Git
