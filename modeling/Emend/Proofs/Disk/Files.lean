import Emend.Disk.Basic
import Mathlib.Data.List.Infix

/-!
# Files at places

What stays true of one place while a disk changes. Two facts carry this module. A way that has once
been walked to its end has no name that is too long, so on every other disk it can be looked up as well.
And a way leads through directories only, so it stays open as long as no directory on it is taken away:
`HasDirectories` compares two disks in this respect.
-/

namespace Emend

/-- The place that one name leads to. -/
def Path.next (place : Path) (n : Text) : Path :=
  if isUp n then place.dropLast else place ++ [n]

/-- The location as a whole and each of its names is short enough for a disk. -/
structure Location.IsShort (l : Location) : Prop where
  whole : (Utf8.encode l.shown).length ≤ Disk.maxPath
  names : ∀ n ∈ l.names, (Utf8.encode n).length ≤ Disk.maxName

namespace Disk

variable {d d₁ d₂ : Disk} {l : Location} {place p q : Path} {bs : Bytes}

theorem get?_nil (d : Disk) : d.get? [] = some .directory := rfl

theorem ne_nil_of_get?_eq_none (h : d.get? p = none) : p ≠ [] := by
  rintro rfl
  cases h

theorem ne_nil_of_get?_eq_file (h : d.get? p = some (.file bs)) : p ≠ [] := by
  rintro rfl
  cases h

/-! ## Walks -/

/-- A walk goes on from a directory by a name that is short enough. -/
theorem walk_cons_eq_ok {n : Text} {ns : List Text} :
    d.walk place (n :: ns) = .ok p ↔
      d.get? place = some .directory ∧ (Utf8.encode n).length ≤ maxName ∧
        d.walk (place.next n) ns = .ok p := by
  rw [walk, Path.next]
  constructor
  · intro h
    split at h
    · cases h
    · cases h
    · rename_i hdirectory
      split at h
      · cases h
      · rename_i hshort
        refine ⟨hdirectory, by omega, ?_⟩
        split at h
        · rename_i hup
          rwa [if_pos hup]
        · rename_i hup
          rwa [if_neg hup]
  · rintro ⟨hdirectory, hshort, h⟩
    rw [hdirectory]
    dsimp only
    rw [if_neg (by omega)]
    split at h
    · rename_i hup
      rwa [if_pos hup]
    · rename_i hup
      rwa [if_neg hup]

/-- Whatever is at fault with a walk over short names, it is not their length. -/
theorem walk_ne_nameTooLong {ns : List Text} (h : ∀ n ∈ ns, (Utf8.encode n).length ≤ maxName) :
    d.walk place ns ≠ .error .nameTooLong := by
  induction ns generalizing place with
  | nil => exact fun h => nomatch h
  | cons n ns ih =>
      have hn := h n List.mem_cons_self
      have htail := fun place => @ih place fun n hn => h n (List.mem_cons_of_mem _ hn)
      rw [walk]
      split
      · exact fun h => nomatch h
      · exact fun h => nomatch h
      · rw [if_neg (by omega)]
        split
        · exact htail _
        · exact htail _

/-- A walk that ends has come by short names only. -/
theorem length_le_of_walk {ns : List Text} (h : d.walk place ns = .ok p) :
    ∀ n ∈ ns, (Utf8.encode n).length ≤ maxName := by
  induction ns generalizing place with
  | nil => exact fun n hn => absurd hn List.not_mem_nil
  | cons n ns ih =>
      obtain ⟨-, hshort, hrest⟩ := walk_cons_eq_ok.mp h
      intro m hm
      rcases List.mem_cons.mp hm with rfl | hm
      · exact hshort
      · exact ih hrest m hm

/-- The directory that holds the end of a walk. -/
theorem walk_dropLast {ns : List Text} (hne : ns ≠ []) (h : d.walk place ns = .ok p) :
    ∃ q, d.walk place ns.dropLast = .ok q ∧ d.get? q = some .directory := by
  induction ns generalizing place with
  | nil => exact absurd rfl hne
  | cons n ns ih =>
      obtain ⟨hdirectory, hshort, hrest⟩ := walk_cons_eq_ok.mp h
      cases ns with
      | nil => exact ⟨place, rfl, hdirectory⟩
      | cons m ns =>
          obtain ⟨q, hwalk, hq⟩ := ih (List.cons_ne_nil m ns) hrest
          exact ⟨q, walk_cons_eq_ok.mpr ⟨hdirectory, hshort, hwalk⟩, hq⟩

/-- Every directory of the one disk is a directory of the other. -/
def HasDirectories (d d₁ : Disk) : Prop :=
  ∀ p, d.get? p = some .directory → d₁.get? p = some .directory

/-- Directories are all that a walk needs. -/
theorem HasDirectories.walk (h : d.HasDirectories d₁) {ns : List Text}
    (hwalk : d.walk place ns = .ok p) : d₁.walk place ns = .ok p := by
  induction ns generalizing place with
  | nil => exact hwalk
  | cons n ns ih =>
      obtain ⟨hdirectory, hshort, hrest⟩ := walk_cons_eq_ok.mp hwalk
      exact walk_cons_eq_ok.mpr ⟨h place hdirectory, hshort, ih hrest⟩

/-! ## Locations -/

theorem find_eq_ok {e : Option Entry} :
    d.find l = .ok (p, e) ↔
      (Utf8.encode l.shown).length ≤ maxPath ∧ d.walk l.start l.names = .ok p ∧ d.get? p = e := by
  rw [find]
  constructor
  · intro h
    split at h
    · cases h
    · rename_i hshort
      cases hwalk : d.walk l.start l.names with
      | error f =>
          rw [hwalk] at h
          cases h
      | ok p' =>
          rw [hwalk] at h
          cases h
          exact ⟨by omega, rfl, rfl⟩
  · rintro ⟨hshort, hwalk, rfl⟩
    rw [if_neg (by omega), hwalk]
    rfl

theorem isShort_of_find {e : Option Entry} (h : d.find l = .ok (p, e)) : l.IsShort :=
  ⟨(find_eq_ok.mp h).1, length_le_of_walk (find_eq_ok.mp h).2.1⟩

/-- A short location can be looked at, on any disk. -/
theorem exists_look (h : l.IsShort) (d : Disk) : ∃ e, d.look l = .ok e := by
  have hne : d.find l ≠ .error .nameTooLong := by
    have hwhole := h.whole
    rw [find, if_neg (by omega)]
    cases hwalk : d.walk l.start l.names with
    | ok p => exact fun h => nomatch h
    | error f =>
        rintro ⟨⟩
        exact walk_ne_nameTooLong h.names hwalk
  rw [look]
  cases hfind : d.find l with
  | ok found => exact ⟨found.2, rfl⟩
  | error f =>
      cases f with
      | nameTooLong => exact absurd hfind hne
      | _ => exact ⟨none, rfl⟩

theorem look_of_find {e : Option Entry} (h : d.find l = .ok (p, e)) : d.look l = .ok e := by
  rw [look, h]

/-! ## The file at a place -/

/-- The bytes of the file at a place, if there is one. -/
def fileAt (d : Disk) (place : Path) : Option Bytes := (d.readFile (.ofPath place)).toOption

theorem readFile_of_fileAt (h : d.fileAt place = some bs) : d.readFile (.ofPath place) = .ok bs := by
  rw [fileAt] at h
  cases hread : d.readFile (.ofPath place) with
  | error e =>
      rw [hread] at h
      cases h
  | ok bs' =>
      rw [hread] at h
      cases h
      rfl

theorem fileAt_of_find_file (h : d.find (.ofPath place) = .ok (p, some (.file bs))) :
    d.fileAt place = some bs := by
  rw [fileAt, readFile, h]
  rfl

theorem find_of_fileAt (h : d.fileAt place = some bs) :
    ∃ p, d.find (.ofPath place) = .ok (p, some (.file bs)) := by
  have hread := readFile_of_fileAt h
  rw [readFile] at hread
  split at hread
  · cases hread
  · cases hread
  · cases hread
  · rename_i p bs' hfind
    cases hread
    exact ⟨p, hfind⟩

theorem isShort_of_fileAt (h : d.fileAt place = some bs) : (Location.ofPath place).IsShort := by
  obtain ⟨p, hfind⟩ := find_of_fileAt h
  exact isShort_of_find hfind

/-- Bytes that are put where no directory is are found there. -/
theorem find_put {e : Option Entry} (h : d.find l = .ok (p, e)) (he : e ≠ some .directory)
    (bs : Bytes) : (d.put p (.file bs)).find l = .ok (p, some (.file bs)) := by
  obtain ⟨hshort, hwalk, hget⟩ := find_eq_ok.mp h
  have hne : ∀ q, d.get? q = some .directory → q ≠ p := by
    rintro q hq rfl
    exact he (hget.symm.trans hq)
  have hdirectories : d.HasDirectories (d.put p (.file bs)) := fun q hq => by
    rw [get?_put_of_ne d _ (hne q hq), hq]
  refine find_eq_ok.mpr ⟨hshort, hdirectories.walk hwalk, ?_⟩
  exact get?_put_self d _ (hne [] (get?_nil d)).symm

theorem fileAt_put {e : Option Entry} (h : d.find (.ofPath place) = .ok (p, e))
    (he : e ≠ some .directory) (bs : Bytes) : (d.put p (.file bs)).fileAt place = some bs :=
  fileAt_of_find_file (find_put h he bs)

theorem relativeText_dropLast_prefix (ns : List Text) :
    Path.relativeText ns.dropLast <+: Path.relativeText ns := by
  induction ns with
  | nil => exact List.prefix_rfl
  | cons n ns ih =>
      cases ns with
      | nil => exact List.nil_prefix
      | cons m ns =>
          have hrest : Path.relativeText (n :: m :: ns) = n ++ '/' :: Path.relativeText (m :: ns) := rfl
          rw [List.dropLast_cons_of_ne_nil (List.cons_ne_nil m ns), hrest]
          cases hns : (m :: ns).dropLast with
          | nil => exact List.prefix_append n _
          | cons k ks =>
              rw [hns] at ih
              exact (List.prefix_append_right_inj n).mpr ((List.prefix_cons_inj '/').mpr ih)

theorem encode_ne_nil {t : Text} (h : t ≠ []) : Utf8.encode t ≠ [] := by
  cases t with
  | nil => exact absurd rfl h
  | cons c t =>
      rw [Utf8.encode, List.flatMap_cons, Utf8.encodeChar]
      split
      · exact List.cons_ne_nil _ _
      · split
        · exact List.cons_ne_nil _ _
        · split <;> exact List.cons_ne_nil _ _

theorem length_shown_parent_le (l : Location) :
    (Utf8.encode l.parent.shown).length ≤ (Utf8.encode l.shown).length := by
  obtain ⟨rest, hrest⟩ := relativeText_dropLast_prefix l.names
  rw [Location.shown, Location.shown, Location.parent]
  dsimp only
  rw [← hrest, ← List.append_assoc]
  cases hparent : List.replicate l.slashes '/' ++ Path.relativeText l.names.dropLast with
  | nil =>
      -- the directory at hand is shown as a point, and nothing is shown as less than that
      rw [List.nil_append]
      have hpoint : (Utf8.encode ['.']).length = 1 := by decide
      cases rest with
      | nil => exact Nat.le_refl _
      | cons c rest =>
          have hpos := List.length_pos_iff.mpr (encode_ne_nil (List.cons_ne_nil c rest))
          dsimp only
          omega
  | cons c t =>
      show (Utf8.encode (c :: t)).length ≤ (Utf8.encode (c :: t ++ rest)).length
      rw [Utf8.encode, Utf8.encode, List.flatMap_append, List.length_append]
      omega

/-- What can be found is held by a directory that can be found. -/
theorem find_parent {e : Option Entry} (hne : l.names ≠ []) (h : d.find l = .ok (p, e)) :
    ∃ q, d.find l.parent = .ok (q, some .directory) := by
  obtain ⟨hshort, hwalk, -⟩ := find_eq_ok.mp h
  obtain ⟨q, hparent, hq⟩ := walk_dropLast hne hwalk
  exact ⟨q, find_eq_ok.mpr ⟨(length_shown_parent_le l).trans hshort, hparent, hq⟩⟩

theorem ensureDir_of_directory (h : d.find l = .ok (p, some .directory)) :
    d.ensureDir l = (.ok (), d) := by
  have hmake : d.makeDir l = .error ⟨.alreadyExists, l.shown⟩ := by
    rw [makeDir, h]
  rw [ensureDir, hmake]
  dsimp only
  rw [h]

/-- There is nothing to make where a directory is. -/
theorem makeDirs_of_directory (h : d.find l = .ok (p, some .directory)) :
    d.makeDirs l = (.ok (), d) := by
  rw [makeDirs]
  cases l.names.length with
  | zero => exact ensureDir_of_directory h
  | succ above => rw [makeDirsUpTo, ensureDir_of_directory h]

end Disk

end Emend
