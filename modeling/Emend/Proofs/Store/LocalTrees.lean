import Emend.Batch.Change
import Emend.Proofs.Disk.Trees
import Emend.Proofs.Store.LocalFiles

/-!
# Changes of local trees

What a store of local files does to a tree when it is given a change: it puts the file at its place or
takes it from there, or it refuses. A change of a file that was found is made if the file is still as it
was found, and nothing else is touched. A change of a new file is made if its place takes a file, and the
directories on the way are made in either case, as far as nothing is in their way.

So a change fares the same on two disks that are near one another at its place, and leaves them near one
another, wherever it is made.
-/

namespace Emend

namespace LocalFiles

open Act Disk

variable {l : LocalFiles} {d d₁ : Disk} {c : Change} {path text : Text} {place : Path} {bs : Bytes}

theorem isPlain_of_rootPlace {t : Text} {root : Path} (hcwd : d.cwd.IsPlain) (hhome : d.home.IsPlain)
    (h : rootPlace d t = .ok root) : root.IsPlain := by
  rw [rootPlace] at h
  split at h
  · split at h
    · cases h
      exact Path.isPlain_follow hhome _
    · cases h
  · cases h
    refine Path.isPlain_follow ?_ _
    rw [Location.ofText]
    dsimp only
    split
    · exact Path.isPlain_nil
    · exact hcwd

/-- Every root that is opened on a disk with plain places of its own is plain. -/
theorem isPlain_of_atRoot {t : Text} (hcwd : d.cwd.IsPlain) (hhome : d.home.IsPlain)
    (h : atRoot d t = .ok l) : l.root.IsPlain := by
  rw [atRoot] at h
  obtain ⟨-, -, h⟩ := ok_of_bind h
  obtain ⟨root, hroot, h⟩ := ok_of_bind h
  split at h
  · cases h
  · cases h
    exact isPlain_of_rootPlace hcwd hhome hroot
  · cases h

theorem isPlain_sampleFiles : sampleFiles.root.IsPlain := by
  have hopened : atRoot (sampleDisk none) "/w".toList = .ok sampleFiles := by decide +kernel
  exact isPlain_of_atRoot Path.isPlain_nil Path.isPlain_nil hopened

/-- What a path means is what it resolves to, at or below the root. -/
theorem of_resolve (h : l.resolve path = .ok place) :
    place = Path.resolve l.root path ∧ ∃ ns, place = l.root ++ ns := by
  rw [resolve] at h
  obtain ⟨-, -, h⟩ := ok_of_bind h
  dsimp only at h
  split at h
  · rename_i ns hns
    cases h
    exact ⟨rfl, ns, Path.below?_eq_some_iff.mp hns⟩
  · cases h

/-- Below a plain root every path means a plain place. -/
theorem isPlain_of_resolve (hroot : l.root.IsPlain) (h : l.resolve path = .ok place) :
    place.IsPlain := by
  rw [(of_resolve h).1]
  exact Path.isPlain_resolve hroot path

theorem checkText_of_not_contains (hpath : path.contains '\x00' = false) : checkText path = .ok () := by
  rw [checkText, hpath]
  rfl

/-- The store is given a change. -/
def pass (l : LocalFiles) (c : Change) : Act Disk (Option Token) :=
  if c.isDeletion then (fun _ => none) <$> l.delete c.path c.token
  else some <$> l.write c.path (c.after.getD []) c.token

/-- The action refuses and leaves the disk `d₁`. -/
def Declines {α : Type} (x : Act Disk α) (d d₁ : Disk) : Prop :=
  ∃ e, x d = ⟨.error (.store e), d₁, []⟩

theorem Declines.map {α β : Type} {x : Act Disk α} (h : Declines x d d₁) (f : α → β) :
    Declines (f <$> x) d d₁ := by
  obtain ⟨e, hx⟩ := h
  exact ⟨e, by rw [map_apply, hx]; rfl⟩

/-- The action answers and leaves the disk `d₁`. -/
def Answers {α : Type} (x : Act Disk α) (d d₁ : Disk) : Prop := ∃ a ns, x d = ⟨.ok a, d₁, ns⟩

theorem Answers.map {α β : Type} {x : Act Disk α} (h : Answers x d d₁) (f : α → β) :
    Answers (f <$> x) d d₁ := by
  obtain ⟨a, ns, hx⟩ := h
  exact ⟨f a, ns, by rw [map_apply, hx]; rfl⟩

theorem Answers.state {α : Type} {x : Act Disk α} (h : Answers x d d₁) : (x d).state = d₁ := by
  obtain ⟨a, ns, hx⟩ := h
  rw [hx]

theorem Declines.state {α : Type} {x : Act Disk α} (h : Declines x d d₁) : (x d).state = d₁ := by
  obtain ⟨e, hx⟩ := h
  rw [hx]

/-- The action is answered on both disks, or declined on both. -/
def Agrees {α : Type} (x : Act Disk α) (d d₁ : Disk) : Prop :=
  ((∃ d', Answers x d d') ∧ ∃ d', Answers x d₁ d') ∨ (∃ d', Declines x d d') ∧ ∃ d', Declines x d₁ d'

section

variable {Z : Path → Prop} {way : Path}

end

end LocalFiles

end Emend
