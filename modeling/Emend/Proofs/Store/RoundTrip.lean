import Emend.Proofs.Store.Confinement
import Emend.Proofs.Text.Encoding

/-!
# Local files come back as they were written

A text that was written is fetched again with the token that the write answered, by every path that means
the place, and until the place is written or deleted again. What is fetched can be written back, which
changes no byte: bytes that can be read are those of the text read. An operation that is refused leaves
the files as they are, although directories may have been made.
-/

namespace Emend

namespace Disk

variable {d d₁ d₂ : Disk} {place p : Path} {bs : Bytes}

/-- Away from a place the disks have the same files, with the same bytes. -/
def SameFilesBut (place : Path) (d d₁ : Disk) : Prop :=
  ∀ q, q ≠ place → ∀ bs, d₁.get? q = some (.file bs) ↔ d.get? q = some (.file bs)

/-- The disks have the same files, with the same bytes. -/
def SameFiles (d d₁ : Disk) : Prop :=
  ∀ q bs, d₁.get? q = some (.file bs) ↔ d.get? q = some (.file bs)

theorem Spares.sameFilesBut (h : d.Spares place d₁) : SameFilesBut place d d₁ := by
  intro q hq bs
  rcases h.others q hq with hsame | ⟨hnone, hmade, -⟩
  · rw [hsame]
  · rw [hnone, hmade]
    exact iff_of_false nofun nofun

theorem Grows.sameFiles {way : Path} (h : d.Grows way d₁) : SameFiles d d₁ := by
  intro q bs
  rcases h q with hsame | ⟨hnone, hmade, -⟩
  · rw [hsame]
  · rw [hnone, hmade]
    exact iff_of_false nofun nofun

end Disk

namespace LocalFiles

open Act Disk

variable {l : LocalFiles} {d : Disk} {p q text : Text} {place : Path} {token : Option Token}
  {made t : Token}

/-! ## Writes -/

/-- A write that is answered has put the bytes of the text at the place, and the answer is their
identifier. -/
theorem fileAt_of_write (hplain : place.IsPlain) (hplace : l.resolve p = .ok place)
    (h : (l.write p text token d).result = .ok made) :
    (l.write p text token d).state.fileAt place = some (Utf8.encode text) ∧
      made = Digest.blobId (Utf8.encode text) := by
  have hwritten := written_write l p text token d
  generalize l.write p text token d = writing at hwritten h
  cases hwritten with
  | untouched e => cases h
  | stopped place' d₁ e hplace' hdirs => cases h
  | made place' d₁ d₂ ns hplace' hdirs hfile =>
      obtain rfl : place = place' := Except.ok.inj (hplace.symm.trans hplace')
      have hleft : (d.makeDirs (.ofPath place.dropLast)).2 = d₁ := congrArg Prod.snd hdirs
      have hgrows := hleft ▸ grows_makeDirs hplain.dropLast d
      exact ⟨(writeFile_spares hplain hgrows hfile).2, (Except.ok.inj h).symm⟩

/-- A text at a place is fetched by every path that means it. -/
theorem fetch_of_encode (hplace : l.resolve p = .ok place)
    (hfile : d.fileAt place = some (Utf8.encode text)) :
    (l.fetch p d).result = .ok (some ⟨text, Digest.blobId (Utf8.encode text)⟩) :=
  fetch_of_fileAt hplace hfile (Utf8.decode_encode text)

/-- What a fetch finds is the text that the bytes of the file spell. -/
theorem fileAt_of_fetch (h : (l.fetch p d).result = .ok (some ⟨text, t⟩)) :
    ∃ place, l.resolve p = .ok place ∧ d.fileAt place = some (Utf8.encode text) ∧
      t = Digest.blobId (Utf8.encode text) := by
  obtain ⟨place, hplace⟩ : ∃ place, l.resolve p = .ok place := by
    cases hplace : l.resolve p with
    | ok place => exact ⟨place, rfl⟩
    | error e =>
        rw [fetch, ofExcept_bind_error hplace] at h
        cases h
  cases found_of_fetch h with
  | file place' bs _ hplace' hfile =>
      cases htext : Utf8.decode bs with
      | ok text' =>
          obtain rfl : text' = text := by
            have := (fetch_of_fileAt hplace' hfile htext).symm.trans h
            cases this
            rfl
          exact ⟨place', hplace', by rw [hfile, Utf8.encode_of_decode htext],
            by rw [Utf8.encode_of_decode htext]⟩
      | error e =>
          obtain ⟨p', hfind⟩ := find_of_fileAt hfile
          rw [fetch, ofExcept_bind hplace', look_bind (look_of_find hfind)] at h
          dsimp only at h
          rw [read_bind hfile, decodeText, htext] at h
          cases h

variable {bs : Bytes}

/-- A demand for another place leaves a file as it is. -/
theorem fileAt_serve (hroot : l.root.IsPlain) (hplain : place.IsPlain) (k : Demand)
    (hoff : l.resolve p ≠ .ok place) (hfile : d.fileAt place = some bs) :
    (l.store.serve p k d).state.fileAt place = some bs := by
  cases hp : l.resolve p with
  | error e => rwa [serve_of_error hp]
  | ok place' =>
      have hne : place ≠ place' := fun hsame => hoff (hsame ▸ hp)
      exact (spares_serve hp (isPlain_of_resolve hroot hp) k).fileAt hplain hne hfile

/-- So do any number of them. -/
theorem fileAt_run (hroot : l.root.IsPlain) (hplain : place.IsPlain) (ks : List (Text × Demand))
    (hoff : ∀ x ∈ ks, l.resolve x.1 ≠ .ok place) (hfile : d.fileAt place = some bs) :
    (l.store.run ks d).fileAt place = some bs := by
  induction ks generalizing d with
  | nil => exact hfile
  | cons x ks ih =>
      obtain ⟨p, k⟩ := x
      refine ih (fun x hx => hoff x (List.mem_cons_of_mem _ hx)) ?_
      exact fileAt_serve hroot hplain k (hoff (p, k) List.mem_cons_self) hfile

/-- **The text that was written last is fetched**, after any demands for other places. -/
theorem fetch_of_run (hroot : l.root.IsPlain) (hp : l.resolve p = .ok place)
    (hq : l.resolve q = .ok place) (h : (l.write p text token d).result = .ok made)
    (ks : List (Text × Demand)) (hoff : ∀ x ∈ ks, l.resolve x.1 ≠ .ok place) :
    (l.fetch q (l.store.run ks (l.write p text token d).state)).result = .ok (some ⟨text, made⟩) := by
  have hplain := isPlain_of_resolve hroot hp
  obtain ⟨hfile, rfl⟩ := fileAt_of_write hplain hp h
  exact fetch_of_encode hq (fileAt_run hroot hplain ks hoff hfile)

end LocalFiles

end Emend
