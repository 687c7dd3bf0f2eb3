import Emend.Proofs.Store.LocalFiles
import Emend.Store.GitWorktree

/-!
# What the store of a working tree does to the disk

A write without a token is made on the disk first. Whether the index takes the path is seen only
afterwards, and a path that it does not take leaves the file written.
-/

namespace Emend.GitWorktree

open Act Disk

variable {g : GitWorktree} {w : Worktree} {path : Text} {place : Path} {bs : Bytes}

/-- The name of a place in the index. -/
def listed (g : GitWorktree) (place : Path) : Text :=
  Path.relativeText ((Path.below? g.files.root place).getD [])

/-- A fetch changes nothing. -/
theorem keeps_fetch (g : GitWorktree) (path : Text) (ref : Option Text) :
    (g.fetch path ref).Keeps Eq := by
  cases ref with
  | none =>
      refine (g.files.keeps_fetch path).focus fun w d hd => ?_
      rw [← hd]
  | some ref =>
      have hinspect : Worktree.inspect.Reads := reads_get.bind fun w => reads_pure w.current
      rw [fetch, fetchAt]
      refine (reads_ofExcept _).keeps.bind fun names => hinspect.keeps.bind fun r => ?_
      refine (reads_ofExcept _).keeps.bind fun c => ?_
      split
      · exact (keeps_note _).bind fun _ => (reads_pure _).keeps
      · exact (LocalFiles.reads_decodeText path _ _).keeps.bind fun t =>
          (keeps_note _).bind fun _ => (reads_pure _).keeps

end Emend.GitWorktree
