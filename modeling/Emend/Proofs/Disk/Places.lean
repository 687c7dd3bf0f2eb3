import Emend.Proofs.Disk.Files
import Mathlib.Order.Defs.Unbundled

/-!
# Plain places

A path without the name that leads up is plain: a walk along it ends where the path says. What a text
means relative to a plain base is plain. So on plain paths the entries of a disk tell everything, and
operations can be compared by what they do to entries: `Grows` is what making directories does, and
`Spares` what a write or removal does away from its own place.
-/

namespace Emend

/-- No name of the path leads up. -/
def Path.IsPlain (p : Path) : Prop := ∀ n ∈ p, Path.isUp n = false

namespace Path

variable {base p : Path}

theorem isPlain_nil : IsPlain [] := fun _ hn => absurd hn List.not_mem_nil

theorem IsPlain.dropLast (h : p.IsPlain) : IsPlain p.dropLast :=
  fun n hn => h n (List.mem_of_mem_dropLast hn)

theorem isPlain_follow (hbase : base.IsPlain) (ns : List Text) : (follow base ns).IsPlain := by
  induction ns generalizing base with
  | nil => exact hbase
  | cons n ns ih =>
      rw [follow]
      split
      · exact ih hbase
      · split
        · exact ih hbase.dropLast
        · rename_i hup
          refine ih fun m hm => ?_
          rcases List.mem_append.mp hm with hm | hm
          · exact hbase m hm
          · rw [List.mem_singleton.mp hm]
            exact Bool.eq_false_iff.mpr hup

theorem isPlain_resolve (hbase : base.IsPlain) (t : Text) : (resolve base t).IsPlain := by
  rw [resolve]
  split
  · exact isPlain_follow isPlain_nil _
  · exact isPlain_follow hbase _

end Path

namespace Disk

variable {d d₁ d₂ : Disk} {place p q : Path} {bs : Bytes}

/-! ## Walks -/

theorem walk_of_isPlain {start : Path} {ns : List Text} (hns : Path.IsPlain ns)
    (h : d.walk start ns = .ok p) : p = start ++ ns := by
  induction ns generalizing start with
  | nil => exact (Except.ok.inj h).symm.trans (List.append_nil start).symm
  | cons n ns ih =>
      obtain ⟨-, -, hrest⟩ := walk_cons_eq_ok.mp h
      have hnext : start.next n = start ++ [n] := by
        rw [Path.next, if_neg (by rw [hns n List.mem_cons_self]; exact Bool.false_ne_true)]
      rw [ih (fun m hm => hns m (List.mem_cons_of_mem n hm)) hrest, hnext, List.append_assoc,
        List.singleton_append]

/-- What is found by a plain path stands at that path. -/
theorem find_of_isPlain (hplace : place.IsPlain) {e : Option Entry}
    (h : d.find (.ofPath place) = .ok (p, e)) : p = place ∧ d.get? place = e := by
  obtain ⟨-, hwalk, hget⟩ := find_eq_ok.mp h
  obtain rfl : p = place := walk_of_isPlain hplace hwalk
  exact ⟨rfl, hget⟩

theorem get?_of_fileAt (hplace : place.IsPlain) (h : d.fileAt place = some bs) :
    d.get? place = some (.file bs) := by
  obtain ⟨p, hfind⟩ := find_of_fileAt h
  exact (find_of_isPlain hplace hfind).2

/-- A file stays one where all directories and the file itself stay. -/
theorem HasDirectories.fileAt (hdirs : d.HasDirectories d₁) (hplace : place.IsPlain)
    (hfile : d.fileAt place = some bs) (hget : d₁.get? place = d.get? place) :
    d₁.fileAt place = some bs := by
  obtain ⟨p, hfind⟩ := find_of_fileAt hfile
  obtain ⟨hshort, hwalk, -⟩ := find_eq_ok.mp hfind
  obtain ⟨rfl, hentry⟩ := find_of_isPlain hplace hfind
  exact fileAt_of_find_file (find_eq_ok.mpr ⟨hshort, hdirs.walk hwalk, hget.trans hentry⟩)

/-- Where no entry is, nothing is seen. -/
theorem look_of_get?_eq_none (hplace : place.IsPlain) (hshort : (Location.ofPath place).IsShort)
    (h : d.get? place = none) : d.look (.ofPath place) = .ok none := by
  obtain ⟨e, hlook⟩ := exists_look hshort d
  rw [hlook]
  rw [look] at hlook
  split at hlook
  · rename_i p e' hfind
    cases hlook
    rw [← (find_of_isPlain hplace hfind).2, h]
  · cases hlook
  · cases hlook
    rfl

/-! ## Making directories -/

/-- From the one disk to the other nothing has changed but that there are directories on the way where
nothing was. -/
def Grows (way : Path) (d d₁ : Disk) : Prop :=
  ∀ p, d₁.get? p = d.get? p ∨ d.get? p = none ∧ d₁.get? p = some .directory ∧ p <+: way

theorem Grows.refl (way : Path) (d : Disk) : d.Grows way d := fun _ => .inl rfl

theorem Grows.trans {way : Path} (h : d.Grows way d₁) (h' : d₁.Grows way d₂) : d.Grows way d₂ := by
  intro p
  rcases h p with hsame | ⟨hnone, hmade, hway⟩
  · rcases h' p with hsame' | ⟨hnone', hmade', hway'⟩
    · exact .inl (hsame'.trans hsame)
    · exact .inr ⟨hsame.symm.trans hnone', hmade', hway'⟩
  · rcases h' p with hsame' | ⟨hnone', -, -⟩
    · exact .inr ⟨hnone, hsame'.trans hmade, hway⟩
    · cases hmade.symm.trans hnone'

theorem Grows.mono {way way' : Path} (h : d.Grows way d₁) (hway : way <+: way') : d.Grows way' d₁ :=
  fun p => (h p).imp_right fun ⟨hnone, hmade, hp⟩ => ⟨hnone, hmade, hp.trans hway⟩

theorem Grows.hasDirectories {way : Path} (h : d.Grows way d₁) : d.HasDirectories d₁ := by
  intro p hp
  rcases h p with hsame | ⟨hnone, -, -⟩
  · exact hsame.trans hp
  · cases hp.symm.trans hnone

/-- Making directories changes no file. -/
theorem Grows.fileAt {way : Path} (h : d.Grows way d₁) (hplace : place.IsPlain)
    (hfile : d.fileAt place = some bs) : d₁.fileAt place = some bs := by
  refine h.hasDirectories.fileAt hplace hfile ?_
  rcases h place with hsame | ⟨hnone, -, -⟩
  · exact hsame
  · cases (get?_of_fileAt hplace hfile).symm.trans hnone

/-- Making one directory puts it where nothing is, or does nothing. -/
theorem ensureDir_cases (d : Disk) (l : Location) :
    (d.ensureDir l).2 = d ∨
      ∃ p, d.find l = .ok (p, none) ∧ (d.ensureDir l).2 = d.put p .directory := by
  rw [ensureDir]
  cases hmake : d.makeDir l with
  | error e =>
      dsimp only
      split <;> exact .inl rfl
  | ok d₁ =>
      rw [makeDir] at hmake
      split at hmake
      · cases hmake
      · cases hmake
      · rename_i p hfind
        cases hmake
        exact .inr ⟨p, hfind, rfl⟩

/-- Making directories comes to making one after the other, of those above as well. -/
theorem makeDirsUpTo_rel {R : Disk → Disk → Prop} [IsTrans Disk R] {P : Location → Prop}
    (hparent : ∀ l, P l → P l.parent) (hstep : ∀ l, P l → ∀ d : Disk, R d (d.ensureDir l).2)
    (above : Nat) (l : Location) (hl : P l) (d : Disk) : R d (d.makeDirsUpTo l above).2 := by
  -- on the directories above: where they are missing they are made, and then the first is tried again
  induction above generalizing l d with
  | zero => exact hstep l hl d
  | succ above ih =>
      have hfirst := hstep l hl d
      rw [makeDirsUpTo]
      generalize d.ensureDir l = first at hfirst
      obtain ⟨_ | _, d₁⟩ := first
      · dsimp only
        split
        · have habove := ih l.parent (hparent l hl) d₁
          generalize d₁.makeDirsUpTo l.parent above = made at habove
          obtain ⟨_ | _, d₂⟩ := made
          · exact trans_of R hfirst habove
          · exact trans_of R (trans_of R hfirst habove) (hstep l hl d₂)
        · exact hfirst
      · exact hfirst

theorem grows_ensureDir (hplace : place.IsPlain) (d : Disk) :
    d.Grows place (d.ensureDir (.ofPath place)).2 := by
  rcases ensureDir_cases d (.ofPath place) with hsame | ⟨p, hfind, hput⟩
  · rw [hsame]
    exact .refl place d
  · obtain ⟨rfl, hnone⟩ := find_of_isPlain hplace hfind
    rw [hput]
    intro q
    by_cases hq : q = p
    · rw [hq]
      exact .inr ⟨hnone, get?_put_self d _ (ne_nil_of_get?_eq_none hnone), List.prefix_rfl⟩
    · exact .inl (get?_put_of_ne d _ hq)

instance (way : Path) : IsTrans Disk (Grows way) := ⟨fun _ _ _ => Grows.trans⟩

/-- All of them are on the way to the first. -/
theorem makeDirsUpTo_rel_ofPath {R : Disk → Disk → Prop} [IsTrans Disk R]
    (hstep : ∀ q, q <+: place → ∀ d : Disk, R d (d.ensureDir (.ofPath q)).2) (above : Nat) (d : Disk) :
    R d (d.makeDirsUpTo (.ofPath place) above).2 := by
  refine makeDirsUpTo_rel (P := fun l => ∃ q, q <+: place ∧ l = .ofPath q) ?_ ?_ above _
    ⟨place, List.prefix_rfl, rfl⟩ d
  · rintro l ⟨q, hq, rfl⟩
    exact ⟨q.dropLast, (List.dropLast_prefix q).trans hq, rfl⟩
  · rintro l ⟨q, hq, rfl⟩
    exact hstep q hq

theorem grows_makeDirsUpTo (above : Nat) (hplace : place.IsPlain) (d : Disk) :
    d.Grows place (d.makeDirsUpTo (.ofPath place) above).2 :=
  makeDirsUpTo_rel_ofPath (fun _ hq d =>
    (grows_ensureDir (fun n hn => hplace n (hq.subset hn)) d).mono hq) above d

/-- Making directories makes them on the way only. -/
theorem grows_makeDirs (hplace : place.IsPlain) (d : Disk) :
    d.Grows place (d.makeDirs (.ofPath place)).2 := grows_makeDirsUpTo _ hplace d

/-! ## Writing and removing -/

/-- From the one disk to the other nothing has changed away from a place but that there are directories
on the way to it, and a directory at the place has stayed one. -/
structure Spares (q : Path) (d d₁ : Disk) : Prop where
  others : ∀ p, p ≠ q → d₁.get? p = d.get? p ∨ d.get? p = none ∧ d₁.get? p = some .directory ∧ p <+: q
  directory : d.get? q = some .directory → d₁.get? q = some .directory

theorem Spares.hasDirectories (h : d.Spares q d₁) : d.HasDirectories d₁ := by
  intro p hp
  by_cases hpq : p = q
  · subst hpq
    exact h.directory hp
  · rcases h.others p hpq with hsame | ⟨hnone, -, -⟩
    · exact hsame.trans hp
    · cases hp.symm.trans hnone

/-- No other file is changed. -/
theorem Spares.fileAt (h : d.Spares q d₁) (hplace : place.IsPlain) (hne : place ≠ q)
    (hfile : d.fileAt place = some bs) : d₁.fileAt place = some bs := by
  refine h.hasDirectories.fileAt hplace hfile ?_
  rcases h.others place hne with hsame | ⟨hnone, -, -⟩
  · exact hsame
  · cases (get?_of_fileAt hplace hfile).symm.trans hnone

/-- Where nothing was there is nothing still, unless it is on the way. -/
theorem Spares.get?_eq_none (h : d.Spares q d₁) (hne : p ≠ q) (hway : ¬ p <+: q)
    (hnone : d.get? p = none) : d₁.get? p = none := by
  rcases h.others p hne with hsame | ⟨-, -, hon⟩
  · exact hsame.trans hnone
  · exact absurd hon hway

/-- A file is written by putting it where no directory is. -/
theorem exists_of_writeFile {l : Location} (h : d.writeFile l bs = .ok d₁) :
    ∃ p e, d.find l = .ok (p, e) ∧ e ≠ some .directory ∧ d₁ = d.put p (.file bs) := by
  rw [writeFile] at h
  split at h
  · cases h
  · cases h
  · rename_i p e hdirectory hfind
    cases h
    exact ⟨p, e, hfind, hdirectory, rfl⟩

/-- What is removed is a file. -/
theorem exists_of_removeFile {l : Location} (h : d.removeFile l = .ok d₁) :
    ∃ p bs, d.find l = .ok (p, some (.file bs)) ∧ d₁ = d.erase p := by
  rw [removeFile] at h
  split at h
  · cases h
  · cases h
  · cases h
  · rename_i p bs hfind
    cases h
    exact ⟨p, bs, hfind, rfl⟩

/-- A file that is written once directories have been made on the way to it. -/
theorem writeFile_spares (hplace : place.IsPlain) (hgrows : d.Grows place.dropLast d₁)
    (hwrite : d₁.writeFile (.ofPath place) bs = .ok d₂) :
    d.Spares place d₂ ∧ d₂.fileAt place = some bs := by
  obtain ⟨p, e, hfind, he, rfl⟩ := exists_of_writeFile hwrite
  refine ⟨⟨fun q hq => ?_, fun hdirectory => ?_⟩, fileAt_put hfind he bs⟩
  · obtain ⟨rfl, -⟩ := find_of_isPlain hplace hfind
    rw [get?_put_of_ne d₁ _ hq]
    exact (hgrows q).imp_right fun ⟨hnone, hmade, hway⟩ =>
      ⟨hnone, hmade, hway.trans (List.dropLast_prefix p)⟩
  · -- a directory at the place would have refused the write
    have hstays := hgrows.hasDirectories place hdirectory
    rw [(find_of_isPlain hplace hfind).2] at hstays
    exact absurd hstays he

/-- A file that is removed. -/
theorem removeFile_spares (hplace : place.IsPlain)
    (hremove : d.removeFile (.ofPath place) = .ok d₁) :
    d.Spares place d₁ ∧ d₁.get? place = none ∧ (Location.ofPath place).IsShort := by
  obtain ⟨p, bs, hfind, rfl⟩ := exists_of_removeFile hremove
  have hshort := isShort_of_find hfind
  obtain ⟨rfl, hfile⟩ := find_of_isPlain hplace hfind
  refine ⟨⟨fun q hq => .inl (get?_erase_of_ne d hq), fun hdirectory => ?_⟩, ?_, hshort⟩
  · cases hfile.symm.trans hdirectory
  · exact get?_erase_self d (ne_nil_of_get?_eq_file hfile)

end Disk

end Emend
