import Emend.Git.Layout
import Emend.Proofs.Disk.Ways
import Mathlib.Data.List.Nodup

/-!
# A repository's own files on a disk

What a repository writes of its own files stands on the disk afterwards, and nothing changes outside its
directory (`get?_writeBack`, `get?_writeBack_of_outside`). What is on the disk is what it reads back
(`lookup_readBack`), so changes outside its directory do not show there (`SameOwn`).
-/

namespace Emend.Git

variable {d d₁ : Disk} {names names' p q : Path} {bs bs' : Bytes}

namespace OwnFiles

variable {fs : OwnFiles}

/-- There is a file of the name, and whichever there is holds the bytes. -/
structure Holds (fs : OwnFiles) (names : Path) (bs : Bytes) : Prop where
  mem : (names, bs) ∈ fs
  only : ∀ bs', (names, bs') ∈ fs → bs' = bs

theorem Holds.lookup (h : fs.Holds names bs) : fs.lookup names = some bs := lookup_of_mem h.mem h.only

theorem holds_of_lookup (hkeys : (fs.map (·.1)).Nodup) (h : fs.lookup names = some bs) :
    fs.Holds names bs where
  mem := mem_of_lookup h
  only _ hmem := congrArg Prod.snd (List.inj_on_of_nodup_map hkeys hmem (mem_of_lookup h) rfl)

/-- What is put among the files is there alone under its name. -/
theorem holds_put (fs : OwnFiles) (names : Path) (bs : Bytes) : (fs.put names bs).Holds names bs := by
  rw [put]
  split
  · rename_i hany
    obtain ⟨⟨p, old⟩, hmem, hp⟩ := List.any_eq_true.mp hany
    obtain rfl : p = names := of_decide_eq_true hp
    refine ⟨List.mem_map.mpr ⟨(p, old), hmem, Prod.ext rfl (if_pos rfl)⟩, fun bs' hbs' => ?_⟩
    obtain ⟨⟨q, old'⟩, -, he⟩ := List.mem_map.mp hbs'
    cases he
    exact if_pos rfl
  · rename_i hnone
    refine ⟨List.mem_append_right _ List.mem_cons_self, fun bs' hbs' => ?_⟩
    rcases List.mem_append.mp hbs' with hmem | hmem
    · exact absurd (List.any_eq_true.mpr ⟨_, hmem, decide_eq_true rfl⟩) hnone
    · cases List.mem_singleton.mp hmem
      rfl

/-- The other files stay. -/
theorem mem_put_of_ne (hne : names ≠ names') : (names, bs) ∈ fs.put names' bs' ↔ (names, bs) ∈ fs := by
  rw [put]
  split
  · constructor
    · intro h
      obtain ⟨⟨p, old⟩, hmem, he⟩ := List.mem_map.mp h
      cases he
      rwa [if_neg hne]
    · exact fun h => List.mem_map.mpr ⟨_, h, Prod.ext rfl (if_neg hne)⟩
  · constructor
    · intro h
      rcases List.mem_append.mp h with hmem | hmem
      · exact hmem
      · cases List.mem_singleton.mp hmem
        exact absurd rfl hne
    · exact fun h => List.mem_append_left _ h

theorem Holds.put (h : fs.Holds names bs) (hne : names ≠ names') (bs' : Bytes) :
    (fs.put names' bs').Holds names bs :=
  ⟨(mem_put_of_ne hne).mpr h.mem, fun b hb => h.only b ((mem_put_of_ne hne).mp hb)⟩

end OwnFiles

namespace Repository

variable {r : Repository}

theorem own_ne_nil (r : Repository) (names : Path) : r.own names ≠ [] := by
  rw [own]
  exact List.append_ne_nil_of_right_ne_nil _ (List.cons_ne_nil _ _)

theorem own_eq_append (r : Repository) (names : Path) : r.own names = r.own [] ++ names := by
  rw [own, own, List.append_assoc, List.singleton_append]

theorem prefix_own (r : Repository) (names : Path) : r.own [] <+: r.own names :=
  ⟨names, (own_eq_append r names).symm⟩

theorem own_inj : r.own names = r.own names' ↔ names = names' := by
  rw [own_eq_append, own_eq_append r names', List.append_cancel_left_eq]

/-! ## Writing -/

/-- Where a file is put nothing else changes but that there may be directories of the repository where
nothing was. -/
theorem get?_putFile (r : Repository) (d : Disk) (names : Path) (bs : Bytes) (hq : q ≠ r.own names) :
    (r.putFile d names bs).get? q = d.get? q ∨ d.get? q = none ∧ r.own [] <+: q := by
  rw [putFile, Disk.get?_put_of_ne _ _ hq]
  generalize List.range names.length = depths
  induction depths generalizing d with
  | nil => exact .inl rfl
  | cons n depths ih =>
      rw [List.foldl_cons]
      rcases ih (if (d.get? (r.own (names.take n))).isSome then d
        else d.put (r.own (names.take n)) .directory) with hsame | ⟨hnone, hown⟩
      · rw [hsame]
        split
        · exact .inl rfl
        · rename_i hfree
          by_cases hp : q = r.own (names.take n)
          · subst hp
            exact .inr ⟨Option.not_isSome_iff_eq_none.mp hfree, prefix_own r _⟩
          · exact .inl (Disk.get?_put_of_ne d _ hp)
      · refine .inr ⟨?_, hown⟩
        split at hnone
        · exact hnone
        · by_cases hp : q = r.own (names.take n)
          · subst hp
            rw [Disk.get?_put_self d _ (own_ne_nil r _)] at hnone
            cases hnone
          · rwa [Disk.get?_put_of_ne d _ hp] at hnone

theorem get?_putFile_self (r : Repository) (d : Disk) (names : Path) (bs : Bytes) :
    (r.putFile d names bs).get? (r.own names) = some (.file bs) :=
  Disk.get?_put_self _ _ (own_ne_nil r names)

/-- Puts files on a disk that does not have them like this. -/
theorem writeBack_eq (r : Repository) (d : Disk) : r.writeBack d = r.ownFiles.foldl (fun d e =>
    if d.get? (r.own e.1) = some (.file e.2) then d else r.putFile d e.1 e.2) d := rfl

/-- Outside the repository's directory nothing changes. -/
theorem get?_writeBack_of_outside (r : Repository) (d : Disk) (hq : ¬ r.own [] <+: q) :
    (r.writeBack d).get? q = d.get? q := by
  rw [writeBack_eq]
  induction r.ownFiles generalizing d with
  | nil => rfl
  | cons e fs ih =>
      rw [List.foldl_cons, ih]
      split
      · rfl
      · have hne : q ≠ r.own e.1 := by
          rintro rfl
          exact hq (prefix_own r e.1)
        rcases get?_putFile r d e.1 e.2 hne with hsame | ⟨-, hown⟩
        · exact hsame
        · exact absurd hown hq

/-- A file stays that nothing else is to be put in place of. -/
theorem get?_foldl_putFile (fs : OwnFiles) (honly : ∀ bs', (names, bs') ∈ fs → bs' = bs)
    (hfile : d.get? (r.own names) = some (.file bs)) :
    (fs.foldl (fun d e => if d.get? (r.own e.1) = some (.file e.2) then d
      else r.putFile d e.1 e.2) d).get? (r.own names) = some (.file bs) := by
  induction fs generalizing d with
  | nil => exact hfile
  | cons e fs ih =>
      obtain ⟨names', bs'⟩ := e
      rw [List.foldl_cons]
      refine ih (fun b hb => honly b (List.mem_cons_of_mem _ hb)) ?_
      split
      · exact hfile
      · by_cases hnames : names' = names
        · subst hnames
          rw [honly bs' List.mem_cons_self]
          exact get?_putFile_self r d names' bs
        · rcases get?_putFile r d names' bs' fun h => hnames (own_inj.mp h).symm with hsame | ⟨hnone, -⟩
          · exact hsame.trans hfile
          · cases hfile.symm.trans hnone

/-- **What the repository holds** stands on the disk that it was written to. -/
theorem get?_writeBack (d : Disk) (h : r.ownFiles.Holds names bs) :
    (r.writeBack d).get? (r.own names) = some (.file bs) := by
  rw [writeBack_eq]
  obtain ⟨hmem, honly⟩ := h
  revert honly hmem
  induction r.ownFiles generalizing d with
  | nil => exact fun hmem => nomatch hmem
  | cons e fs ih =>
      intro hmem honly
      have hrest : ∀ bs', (names, bs') ∈ fs → bs' = bs := fun b hb => honly b (List.mem_cons_of_mem _ hb)
      rw [List.foldl_cons]
      rcases List.mem_cons.mp hmem with rfl | hmem
      · refine get?_foldl_putFile fs hrest ?_
        split
        · assumption
        · exact get?_putFile_self r d names bs
      · exact ih _ hmem hrest

/-! ## Reading back -/

/-- What is one of the repository's own files among the entries of a disk. -/
def ownFile? (r : Repository) : Path × Entry → Option (Path × Bytes)
  | (p, .file bs) => (Path.below? (r.own []) p).map (·, bs)
  | (_, .directory) => none

theorem ownFiles_readBack (r : Repository) (d : Disk) :
    (r.readBack d).ownFiles = d.entries.filterMap r.ownFile? := by
  refine List.filterMap_congr fun e _ => ?_
  obtain ⟨p, bs | _⟩ := e
  · cases hbelow : Path.below? (r.own []) p <;> simp [ownFile?, hbelow]
  · rfl

theorem ownFile?_eq_some {e : Path × Entry} :
    r.ownFile? e = some (names, bs) ↔ e = (r.own names, .file bs) := by
  obtain ⟨p, bs' | _⟩ := e
  · rw [ownFile?, Option.map_eq_some_iff]
    constructor
    · rintro ⟨rest, hrest, heq⟩
      cases heq
      rw [Path.below?_eq_some_iff.mp hrest, ← own_eq_append]
    · intro h
      cases h
      exact ⟨names, Path.below?_eq_some_iff.mpr (own_eq_append r names), rfl⟩
  · exact iff_of_false nofun nofun

/-- What stands on the disk is read back. -/
theorem lookup_readBack (r : Repository) (h : d.get? (r.own names) = some (.file bs)) :
    (r.readBack d).ownFiles.lookup names = some bs := by
  rw [Disk.get?, if_neg (by simpa using own_ne_nil r names)] at h
  rw [ownFiles_readBack]
  generalize d.entries = es at h
  induction es with
  | nil => cases h
  | cons e es ih =>
      obtain ⟨p, e⟩ := e
      rw [List.lookup_cons] at h
      rw [List.filterMap_cons]
      by_cases hp : r.own names = p
      · subst hp
        rw [beq_self_eq_true] at h
        obtain rfl : e = .file bs := Option.some.inj h
        rw [ownFile?_eq_some.mpr rfl]
        exact List.lookup_cons_self
      · rw [beq_eq_false_iff_ne.mpr hp] at h
        cases hown : r.ownFile? (p, e) with
        | none => exact ih h
        | some own =>
            obtain ⟨names', bs'⟩ := own
            obtain ⟨rfl, -⟩ := Prod.mk.inj (ownFile?_eq_some.mp hown)
            have hne : names ≠ names' := fun hnames => hp (own_inj.mpr hnames)
            dsimp only
            rw [List.lookup_cons, beq_eq_false_iff_ne.mpr hne]
            exact ih h

/-- If no path comes twice on the disk, no file of the repository does. -/
theorem nodup_ownFiles (r : Repository) (h : (d.entries.map (·.1)).Nodup) :
    ((r.readBack d).ownFiles.map (·.1)).Nodup := by
  rw [ownFiles_readBack]
  generalize d.entries = es at h
  induction es with
  | nil => exact List.nodup_nil
  | cons e es ih =>
      rw [List.map_cons, List.nodup_cons] at h
      rw [List.filterMap_cons]
      cases hown : r.ownFile? e with
      | none => exact ih h.2
      | some own =>
          obtain ⟨names, bs⟩ := own
          refine List.nodup_cons.mpr ⟨fun hmem => h.1 ?_, ih h.2⟩
          obtain ⟨⟨names', bs'⟩, hfile, hnames⟩ := List.mem_map.mp hmem
          obtain rfl : names' = names := hnames
          obtain ⟨e', he', hown'⟩ := List.mem_filterMap.mp hfile
          rw [ownFile?_eq_some.mp hown]
          exact List.mem_map.mpr ⟨e', he', by rw [ownFile?_eq_some.mp hown']⟩

/-- The same files of the repository are on the disks. -/
def SameOwn (r : Repository) (d d₁ : Disk) : Prop := (r.readBack d₁).ownFiles = (r.readBack d).ownFiles

instance (r : Repository) : IsTrans Disk r.SameOwn := ⟨fun _ _ _ h h' => Eq.trans h' h⟩

theorem sameOwn_refl (r : Repository) (d : Disk) : r.SameOwn d d := rfl

/-- What stands outside the repository's directory is no file of the repository. -/
theorem ownFile?_of_outside (hp : ¬ r.own [] <+: p) (e : Entry) : r.ownFile? (p, e) = none := by
  rw [Option.eq_none_iff_forall_ne_some]
  rintro ⟨names, bs⟩ hown
  obtain ⟨rfl, -⟩ := Prod.mk.inj (ownFile?_eq_some.mp hown)
  exact hp (prefix_own r names)

theorem sameOwn_erase (hp : ¬ r.own [] <+: p) (d : Disk) : r.SameOwn d (d.erase p) := by
  rw [SameOwn, ownFiles_readBack, ownFiles_readBack]
  show (d.entries.filter (·.1 != p)).filterMap r.ownFile? = d.entries.filterMap r.ownFile?
  induction d.entries with
  | nil => rfl
  | cons e es ih =>
      obtain ⟨q, e⟩ := e
      rw [List.filter_cons]
      by_cases hq : q = p
      · subst hq
        rw [if_neg (by simp), ih, List.filterMap_cons, ownFile?_of_outside hp]
      · rw [if_pos (bne_iff_ne.mpr hq), List.filterMap_cons, List.filterMap_cons, ih]

theorem sameOwn_put (hp : ¬ r.own [] <+: p) (d : Disk) (e : Entry) : r.SameOwn d (d.put p e) := by
  have hothers := sameOwn_erase hp d
  rw [SameOwn, ownFiles_readBack, ownFiles_readBack] at hothers ⊢
  refine Eq.trans ?_ hothers
  exact List.filterMap_cons_none (ownFile?_of_outside hp e)

end Repository

end Emend.Git
