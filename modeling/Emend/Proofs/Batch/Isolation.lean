import Emend.Proofs.Batch.Halts
import Emend.Proofs.Batch.Turns
import Emend.Proofs.Config.Message
import Emend.Proofs.Message.Locality

/-!
# What one failure does to the others

Over local files a message is prepared and committed to the end, whatever cannot be fetched or stored:
that becomes the fate of the change at hand. Committing is the turns of the changes that were prepared,
and each is prepared for itself, so leaving out the instructions of one path leaves out its turn and
nothing else.
-/

namespace Emend

namespace LocalFiles

open Act Disk

variable {l : LocalFiles} {d : Disk} {c : Change} {cs : List Change} {s : Session Disk}

/-! ## The turns of a session -/

/-- The change that is prepared for a group of instructions. -/
def prepared (s : Session Disk) (ref : Option Text) (d : Disk) (g : Text × List Instruction) : Change :=
  match (s.prepareFile ref g.1 g.2 d).result with
  | .ok c => c
  | .error _ => { path := g.1, instructions := g.2 }

/-- The instructions of a message whose files can be fetched, or at least that is refused. -/
structure AreFetchable (l : LocalFiles) (d : Disk) (is : List Instruction) : Prop where
  /-- No path has a null character. -/
  plain : ∀ i ∈ is, i.path.contains '\x00' = false
  /-- Where something else is asked for than to create the file, its place can be looked at. -/
  look : ∀ i ∈ is, i.operation ≠ .create → ∀ place, l.resolve i.path = .ok place →
    ∃ e, d.look (.ofPath place) = .ok e

theorem all_isOk_look_iff (l : LocalFiles) (d : Disk) (path : Text) :
    (l.resolve path).toOption.all (fun place => (d.look (.ofPath place)).isOk) = true ↔
      ∀ place, l.resolve path = .ok place → ∃ e, d.look (.ofPath place) = .ok e := by
  cases l.resolve path with
  | error e => exact iff_of_true rfl nofun
  | ok place =>
      have hlook : (d.look (.ofPath place)).isOk = true ↔ ∃ e, d.look (.ofPath place) = .ok e := by
        cases d.look (.ofPath place) with
        | error e => exact iff_of_false nofun nofun
        | ok e => exact iff_of_true rfl ⟨e, rfl⟩
      exact hlook.trans ⟨fun h p hp => Except.ok.inj hp ▸ h, fun h => h place rfl⟩

instance (l : LocalFiles) (d : Disk) (is : List Instruction) : Decidable (l.AreFetchable d is) :=
  decidable_of_iff ((∀ i ∈ is, i.path.contains '\x00' = false) ∧ ∀ i ∈ is, i.operation ≠ .create →
      (l.resolve i.path).toOption.all (fun place => (d.look (.ofPath place)).isOk) = true)
    ⟨fun ⟨hplain, hlook⟩ => ⟨hplain, fun i hi hother =>
        (all_isOk_look_iff l d i.path).mp (hlook i hi hother)⟩,
      fun h => ⟨h.plain, fun i hi hother => (all_isOk_look_iff l d i.path).mpr (h.look i hi hother)⟩⟩

theorem AreFetchable.filter {is : List Instruction} (h : l.AreFetchable d is)
    (p : Instruction → Bool) : l.AreFetchable d (is.filter p) :=
  ⟨fun i hi => h.plain i (List.mem_of_mem_filter hi), fun i hi => h.look i (List.mem_of_mem_filter hi)⟩

end LocalFiles

open LocalFiles

/-- A name that is too long for a file, in a directory that is not there, and an edit. -/
def sampleStray : Text :=
  "[FILE] d/".toList ++ List.replicate 256 'b' ++ "\n[CREATE]one[/CREATE]\n".toList ++
    "[FILE] a.txt\n[REPLACE]two[/REPLACE]".toList

end Emend
