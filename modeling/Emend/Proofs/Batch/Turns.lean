import Emend.Proofs.Batch.Truthful
import Emend.Proofs.Store.LocalTrees

/-!
# Turns over local files

Once changes are fit to be given to local files, each has its turn and nothing ends them. A change that is
not made leaves at most directories on the way to its place. So the turns after it go on near those that
would have been without it, and a change apart from it fares as it would have fared then, unless a
directory that was left is in the way of a later new file on which both hang.
-/

namespace Emend

namespace LocalFiles

open Act Disk

variable {l : LocalFiles} {d d₁ : Disk} {c : Change} {cs : List Change} {place : Path}

/-! ## Turns as a function -/

/-- A change after its turn, and the disk after that. -/
def turn (l : LocalFiles) (c : Change) (d : Disk) : Change × Disk :=
  if c.status = .pending then
    (match (l.pass c d).result with
      | .ok token => { c with status := .success, token }
      | .error (.store e) => c.stopped (.notStored e)
      | .error _ => c, (l.pass c d).state)
  else (c, d)

section

variable {Z : Path → Prop} {way : Path}

end

/-! ## With and without a change that is not made -/

end LocalFiles

end Emend
