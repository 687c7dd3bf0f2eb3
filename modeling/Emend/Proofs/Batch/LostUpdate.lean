import Emend.Proofs.Batch.Shared
import Emend.Proofs.Store.GitWorktree

/-!
# What a commit does to the edits of others

Between the preparing and the making of a change others may edit its file. A change of a file that was
found carries the identifier of the bytes found: it is made only on bytes with that identifier, and is
refused on any others, which then stay as they are. A change of a file that was missing carries nothing,
so nothing is checked, and a file that others have made in the meantime is overwritten.

The disk may be anything before each call, so nothing is assumed about what others do. A change may
also not come to a call at all: it was not pending, or the commit ended before its turn.
-/

namespace Emend

namespace Session

open Act Disk LocalFiles

/-! ## One call -/

section
variable {l : LocalFiles} {s : Session Disk} {ref : Option Text} {c : Change} {place : Path}
  {d : Disk} {now : Bytes}

end

/-! ## Files that were found -/

/-- What becomes of a change of a file that was found with the bytes `fetched`, and the calls for it.
`failure` is what ended the commit, if anything did. -/
inductive Guarded (place : Path) (fetched : Bytes) (failure : Option Failure) (c : Change) :
    Change → List (Visit Disk) → Prop
  /-- No call was made for the change, and it stands where it stood. -/
  | untouched (why : c.status ≠ .pending ∨ failure.isSome) : Guarded place fetched failure c c []
  /-- The bytes at the place had the identifier of those fetched, and the change was made. -/
  | made (v : Visit Disk) (token : Option Token) (now : Bytes) (status : c.status = .pending)
      (found : v.found.fileAt place = some now) (same : Digest.blobId now = Digest.blobId fetched)
      (left : v.left.fileAt place = c.result.map Utf8.encode) :
      Guarded place fetched failure c { c with status := .success, token } [v]
  /-- They had not, or there were none, and everything was left as it was. -/
  | refused (v : Visit Disk) (e : StoreError) (status : c.status = .pending)
      (found : ∀ now, v.found.fileAt place = some now → Digest.blobId now ≠ Digest.blobId fetched)
      (left : v.left = v.found) (said : e.message ≠ []) :
      Guarded place fetched failure c (c.stopped (.notStored e)) [v]

/-- A pending change that a commit comes to fails if the bytes are others by then, and leaves them. -/
theorem Guarded.failed {place : Path} {fetched : Bytes} {failure : Option Failure} {c c' : Change}
    {vs : List (Visit Disk)} (h : Guarded place fetched failure c c' vs) (hstatus : c.status = .pending)
    (hended : failure = none)
    (hstale : ∀ v ∈ vs, ∀ now, v.found.fileAt place = some now →
      Digest.blobId now ≠ Digest.blobId fetched) :
    c'.status = .failed ∧ ∀ v ∈ vs, v.left = v.found := by
  cases h with
  | untouched why =>
      rcases why with hnot | hfailed
      · exact absurd hstatus hnot
      · rw [hended] at hfailed
        cases hfailed
  | made v token now _ found same =>
      exact absurd same (hstale v (List.mem_singleton_self v) now found)
  | refused v e _ _ left => exact ⟨rfl, fun w hw => List.mem_singleton.mp hw ▸ left⟩

section
variable {σ : Type} {s : Session σ} {disk : σ → Disk} {resolve : Text → Except Failure Path}
  {taken : Path → Prop} {ref : Option Text} {c c' : Change} {place : Path}

end

end Session

end Emend
