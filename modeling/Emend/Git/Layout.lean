import Emend.Disk.Basic
import Emend.Git.Repository
import Emend.Git.Reserved

/-!
# Repositories on a disk

A repository keeps its own files below the top of its working tree, in a directory whose name is
reserved. `fresh` is a new repository with the files that every repository begins with; `layOut` puts a
repository's own files and directories on a disk, and `readBack` takes the files from there, where others
may have changed them. The files that hold what is stored are not modelled.
-/

namespace Emend.Git

/-- The directories of a new repository by the names that lead to them. -/
def directoryNames : List (List String) :=
  [[], ["branches"], ["hooks"], ["info"], ["objects"], ["objects", "info"], ["objects", "pack"],
   ["refs"], ["refs", "heads"], ["refs", "tags"]]

/-- The lines of the settings of a new repository. -/
def settingLines : List String :=
  ["[core]", "\trepositoryformatversion = 0", "\tfilemode = true", "\tbare = false",
   "\tlogallrefupdates = true"]

/-- The line of a description that nobody has written yet. -/
def descriptionLine : String :=
  "Unnamed repository; edit this file 'description' to name the repository."

/-- The lines of the list of ignored files that nobody has written yet. -/
def exclusionLines : List String :=
  ["# git ls-files --others --exclude-from=.git/info/exclude",
   "# Lines that start with '#' are comments.",
   "# For a project mostly in C, the following would be a good set of",
   "# exclude patterns (uncomment them if you want to use them):", "# *.[oa]", "# *~"]

namespace Repository

/-- The bytes of a file with these lines. -/
def lineBytes (ls : List Text) : Bytes := Utf8.encode (ls.flatMap (· ++ ['\n']))

/-- A new repository. Its branch has no commit yet. -/
def fresh (top : Path) (branch : Text) (author committer : Person) (time : Text) : Repository where
  top
  ownFiles :=
    [(["HEAD".toList], lineBytes ["ref: ".toList ++ branchFront ++ branch]),
     (["config".toList], lineBytes (settingLines.map String.toList)),
     (["description".toList], lineBytes [descriptionLine.toList]),
     (["info".toList, "exclude".toList], lineBytes (exclusionLines.map String.toList))]
  author
  committer
  time

/-- The path of one of a repository's own entries. -/
def own (r : Repository) (names : Path) : Path := r.top ++ metadataName :: names

/-- Puts one of a repository's own files on a disk, with the directories that lead there. -/
def putFile (r : Repository) (d : Disk) (names : Path) (bs : Bytes) : Disk :=
  let d := (List.range names.length).foldl (fun d n =>
    let p := r.own (names.take n)
    if (d.get? p).isSome then d else d.put p .directory) d
  d.put (r.own names) (.file bs)

/-- Puts those of a repository's own files on a disk that it does not have like this. -/
def writeBack (r : Repository) (d : Disk) : Disk :=
  r.ownFiles.foldl (fun d (names, bs) =>
    if d.get? (r.own names) = some (.file bs) then d else r.putFile d names bs) d

/-- Puts what belongs to a new repository on a disk. -/
def layOut (r : Repository) (d : Disk) : Disk :=
  r.writeBack (directoryNames.foldl (fun d ns => d.put (r.own (ns.map String.toList)) .directory) d)

/-- The repository with its own files as a disk has them. -/
def readBack (r : Repository) (d : Disk) : Repository :=
  { r with ownFiles := d.entries.filterMap fun (p, e) => match e, Path.below? (r.own []) p with
      | .file bs, some names => some (names, bs)
      | _, _ => none }

end Repository

end Emend.Git
