import Emend.Proofs.Git.Layout
import Emend.Proofs.Git.Pathspecs
import Emend.Proofs.Store.GitWorktree
import Emend.Proofs.Store.RoundTrip

/-!
# Writes and deletions in a working tree

A write puts a text at its place on the disk and lists it in the index, and a deletion takes the file away
from both. `Touch` is such a change by its names, `Touched` is all that one of them does, and `Steps` is a
row of them that succeed. Through every row the files that are listed stay those on the disk, byte for byte
(`Lists.of_steps`), the last change of a file is the one that counts, and nothing is done to the
repository's own files.
-/

namespace Emend

namespace Disk

variable {d : Disk} {place q : Path} {bs : Bytes}

/-- A file is held by directories all the way. -/
theorem isDirectory_of_fileAt (hplace : place.IsPlain) (h : d.fileAt place = some bs) (hq : q <+: place)
    (hne : q ≠ place) : d.get? q = some .directory := by
  obtain ⟨p, hfind⟩ := find_of_fileAt h
  obtain ⟨-, hwalk, -⟩ := find_eq_ok.mp hfind
  obtain ⟨rfl, -⟩ := find_of_isPlain hplace hfind
  exact ((walk_eq_ok_iff [] hplace).mp hwalk).2 q hq hne

/-- Where nothing is, there is no file below. -/
theorem not_prefix_of_fileAt (hplace : place.IsPlain) (h : d.fileAt place = some bs)
    (hq : d.get? q = none) : ¬ q <+: place := by
  intro hprefix
  by_cases hsame : q = place
  · rw [hsame, get?_of_fileAt hplace h] at hq
    cases hq
  · rw [isDirectory_of_fileAt hplace h hprefix hsame] at hq
    cases hq

end Disk

namespace LocalFiles

open Disk

variable {l : LocalFiles} {d : Disk} {p text : Text} {place : Path} {token : Option Token}
  {r : Git.Repository}

/-! ## A repository's own files -/

theorem sameOwn_makeDirs (hplace : place.IsPlain) (hout : ¬ r.own [] <+: place) (d : Disk) :
    r.SameOwn d (d.makeDirs (.ofPath place)).2 := by
  refine makeDirsUpTo_rel_ofPath (fun q hq d => ?_) _ d
  rcases ensureDir_cases d (.ofPath q) with hsame | ⟨p, hfind, hput⟩
  · rw [hsame]
    exact r.sameOwn_refl d
  · obtain ⟨rfl, -⟩ := find_of_isPlain (hplace.of_prefix hq) hfind
    rw [hput]
    exact Git.Repository.sameOwn_put (fun hown => hout (hown.trans hq)) d _

/-- A write elsewhere leaves them alone. -/
theorem sameOwn_write (hp : l.resolve p = .ok place) (hplace : place.IsPlain)
    (hout : ¬ r.own [] <+: place) (text : Text) (token : Option Token) (d : Disk) :
    r.SameOwn d (l.write p text token d).state := by
  have hdirs : ∀ d₁, (d.makeDirs (Location.ofPath place).parent).2 = d₁ → r.SameOwn d d₁ := by
    rintro d₁ rfl
    have hparent : ¬ r.own [] <+: place.dropLast := fun hown =>
      hout (hown.trans (List.dropLast_prefix place))
    exact sameOwn_makeDirs hplace.dropLast hparent d
  have hwritten := written_write l p text token d
  generalize l.write p text token d = writing at hwritten
  cases hwritten with
  | untouched e => exact r.sameOwn_refl d
  | stopped place' d₁ e hplace' hleft =>
      obtain rfl : place = place' := Except.ok.inj (hp.symm.trans hplace')
      exact hdirs d₁ hleft
  | made place' d₁ d₂ ns hplace' hleft hfile =>
      obtain rfl : place = place' := Except.ok.inj (hp.symm.trans hplace')
      obtain ⟨q, e, hfind, -, rfl⟩ := exists_of_writeFile hfile
      obtain ⟨rfl, -⟩ := find_of_isPlain hplace hfind
      exact trans_of r.SameOwn (hdirs d₁ (congrArg Prod.snd hleft)) (Git.Repository.sameOwn_put hout d₁ _)

/-- A deletion that is answered has taken a file away, and nothing else. -/
theorem erase_of_delete (hp : l.resolve p = .ok place) (hplace : place.IsPlain)
    (h : (l.delete p token d).result = .ok ()) :
    (∃ bs, d.fileAt place = some bs) ∧ (l.delete p token d).state = d.erase place := by
  have hdeleted := deleted_delete l p token d
  generalize l.delete p token d = deletion at hdeleted h
  cases hdeleted with
  | untouched e => cases h
  | made place' d₁ ns hplace' hremoved =>
      obtain rfl : place = place' := Except.ok.inj (hp.symm.trans hplace')
      obtain ⟨q, bs, hfind, rfl⟩ := exists_of_removeFile hremoved
      obtain ⟨rfl, -⟩ := find_of_isPlain hplace hfind
      exact ⟨⟨bs, fileAt_of_find_file hfind⟩, rfl⟩

end LocalFiles

namespace Path

variable {ns ms : Path} {t : Text}

/-- The names lead on from a directory, one by one. -/
def LeadsOn (ns : Path) : Prop := ns ≠ [] ∧ ns.IsNormal

theorem LeadsOn.not_mem_slash (h : ns.LeadsOn) : ∀ n ∈ ns, '/' ∉ n := fun n hn => (h.2 n hn).2.2

theorem LeadsOn.splitOn (h : ns.LeadsOn) : Text.splitOn '/' (relativeText ns) = ns :=
  splitOn_relativeText h.1 h.not_mem_slash

theorem LeadsOn.relativeText_inj (hns : ns.LeadsOn) (hms : ms.LeadsOn) :
    relativeText ns = relativeText ms ↔ ns = ms := by
  constructor
  · intro h
    rw [← hns.splitOn, h, hms.splitOn]
  · exact congrArg relativeText

theorem leadsOn_splitOn (h : IsNormal (Text.splitOn '/' t)) : LeadsOn (Text.splitOn '/' t) :=
  ⟨Text.splitOn_ne_nil '/' t, h⟩

end Path

/-- A change of a file by its names: a text is written to it, or it is deleted. -/
structure Touch where
  names : Path
  text : Option Text
  deriving DecidableEq, Repr

/-- What a change makes of a repository: the file is listed with its bytes, or is listed no more. -/
def Git.Repository.touch (r : Git.Repository) (t : Touch) : Git.Repository :=
  match t.text with
  | some text => r.stage (Path.relativeText t.names) (Utf8.encode text)
  | none => { r with index := r.index.filter (·.1 != Path.relativeText t.names) }

namespace Git.Repository

variable {r : Repository} {t : Touch} {p : Text}

theorem lookup_touch (r : Repository) (t : Touch) (p : Text) :
    (r.touch t).index.lookup p = if p = Path.relativeText t.names then
      t.text.map fun text => Digest.blobId (Utf8.encode text) else r.index.lookup p := by
  obtain ⟨ns, _ | text⟩ := t
  · show (r.index.filter (·.1 != Path.relativeText ns)).lookup p = _
    split
    · rename_i hp
      rw [hp, lookup_filter_self]
      rfl
    · rename_i hp
      exact lookup_filter_ne _ hp
  · exact Snapshot.lookup_put r.index _ _ p

theorem nodup_touch (h : (r.index.map (·.1)).Nodup) (t : Touch) : ((r.touch t).index.map (·.1)).Nodup := by
  obtain ⟨ns, _ | text⟩ := t
  · exact h.sublist (List.filter_sublist.map _)
  · exact Snapshot.nodup_put h _ _

theorem head?_touch (r : Repository) (t : Touch) : (r.touch t).head? = r.head? := by
  obtain ⟨ns, _ | text⟩ := t <;> rfl

theorem ownFiles_touch (r : Repository) (t : Touch) : (r.touch t).ownFiles = r.ownFiles := by
  obtain ⟨ns, _ | text⟩ := t <;> rfl

theorem blobs_subset_touch (r : Repository) (t : Touch) : r.blobs ⊆ (r.touch t).blobs := by
  obtain ⟨ns, _ | text⟩ := t
  · exact fun _ h => h
  · exact fun _ h => List.mem_cons_of_mem _ h

/-- Any number of changes leave `HEAD` and the repository's own files, and lose no contents. -/
theorem foldl_touch (ts : List Touch) (r : Repository) :
    (ts.foldl touch r).ownFiles = r.ownFiles ∧ (ts.foldl touch r).head? = r.head? ∧
      r.blobs ⊆ (ts.foldl touch r).blobs := by
  induction ts generalizing r with
  | nil => exact ⟨rfl, rfl, List.Subset.refl _⟩
  | cons t ts ih =>
      obtain ⟨hfiles, hhead, hblobs⟩ := ih (r.touch t)
      exact ⟨hfiles.trans (ownFiles_touch r t), hhead.trans (head?_touch r t),
        List.Subset.trans (blobs_subset_touch r t) hblobs⟩

theorem readBack_touch (r : Repository) (t : Touch) (d : Disk) :
    (r.touch t).readBack d = (r.readBack d).touch t := by
  obtain ⟨ns, _ | text⟩ := t <;> rfl

end Git.Repository

namespace GitWorktree

open Act Disk

variable {g : GitWorktree} {w w₁ w₂ : Worktree} {path text : Text} {ns : Path} {token : Option Token}
  {t : Touch} {ts : List Touch}

/-! ## Names -/

theorem resolve_of_names (h : g.names path = .ok ns) : g.files.resolve path = .ok (g.files.root ++ ns) := by
  obtain ⟨place, hplace, hns⟩ := ok_of_bind h
  obtain ⟨-, rest, rfl⟩ := LocalFiles.of_resolve hplace
  rw [Path.below?_eq_some_iff.mpr rfl] at hns
  cases hns
  exact hplace

theorem isNormal_of_names (hroot : g.files.root.IsNormal) (h : g.names path = .ok ns) :
    (g.files.root ++ ns).IsNormal := by
  rw [(LocalFiles.of_resolve (resolve_of_names h)).1]
  exact Path.isNormal_resolve hroot path

/-! ## One change -/

/-- If a file is listed under a path, taking the path out of the index takes that file out and no other. -/
def Drops (r : Git.Repository) (listed : Text) : Prop :=
  r.index.lookup listed ≠ none → ∀ index, r.index.removal r.top listed = .ok index →
    index = r.index.filter (·.1 != listed)

/-- A write or a deletion that succeeds, of a file that is none of the repository's own. -/
inductive Step (g : GitWorktree) (w : Worktree) : Touch → Worktree → Prop
  | write {path text : Text} {ns : Path} {token : Option Token} {made : Token}
      (hnames : g.names path = .ok ns) (houtside : ns.head? ≠ some Git.metadataName)
      (h : (g.write path text token w).result = .ok made) :
      Step g w ⟨ns, some text⟩ (g.write path text token w).state
  | delete {path : Text} {ns : Path} {token : Option Token}
      (hnames : g.names path = .ok ns) (houtside : ns.head? ≠ some Git.metadataName)
      (hdrops : Drops w.repository (Path.relativeText ns))
      (h : (g.delete path token w).result = .ok ()) :
      Step g w ⟨ns, none⟩ (g.delete path token w).state

/-- Such changes one after the other. -/
inductive Steps (g : GitWorktree) : List Touch → Worktree → Worktree → Prop
  | nil (w : Worktree) : Steps g [] w w
  | cons {t : Touch} {ts : List Touch} {w w₁ w₂ : Worktree} (hstep : Step g w t w₁)
      (hsteps : Steps g ts w₁ w₂) : Steps g (t :: ts) w w₂

theorem ensures_onDisk {α : Type} (x : Act Disk α) (w : Worktree) :
    (Worktree.onDisk x).Ensures w fun a w₁ =>
      (x w.disk).result = .ok a ∧ w₁ = { w with disk := (x w.disk).state } := fun _ h => ⟨h, rfl⟩

/-- What a write that is answered has done. -/
theorem ensures_write (hnames : g.names path = .ok ns) (text : Text) (token : Option Token)
    (w : Worktree) : (g.write path text token).Ensures w fun made w₁ =>
      (g.files.write path text token w.disk).result = .ok made ∧
        w₁ = ⟨(g.files.write path text token w.disk).state,
          w.repository.stage (Path.relativeText ns) (Utf8.encode text)⟩ := by
  rw [GitWorktree.write]
  refine (ensures_onDisk _ w).bind ?_
  rintro made w₁ ⟨hmade, hw₁⟩
  refine (ensures_ofExcept _ w₁).bind ?_
  rintro ns' w₂ ⟨hns, hw₂⟩
  obtain rfl : ns = ns' := Except.ok.inj (hnames.symm.trans hns)
  refine (ensures_ofExcept _ w₂).bind ?_
  rintro - w₃ ⟨-, hw₃⟩
  refine (ensures_modify _ w₃).bind fun _ w₄ hw₄ => ?_
  refine ensures_pure ⟨hmade, ?_⟩
  rw [hw₄, hw₃, hw₂, hw₁]

/-- What is not listed is not taken out. -/
theorem filter_of_lookup_eq_none {s : Git.Snapshot} {p : Text} (h : s.lookup p = none) :
    s.filter (·.1 != p) = s := by
  refine List.filter_eq_self.mpr fun e he => bne_iff_ne.mpr ?_
  rintro rfl
  simpa using List.lookup_eq_none_iff.mp h e he

/-- What a deletion that is answered has done. -/
theorem ensures_delete (hnames : g.names path = .ok ns) (token : Option Token)
    (hdrops : Drops w.repository (Path.relativeText ns)) :
    (g.delete path token).Ensures w fun _ w₁ =>
      (g.files.delete path token w.disk).result = .ok () ∧
        w₁ = ⟨(g.files.delete path token w.disk).state,
          { w.repository with index := w.repository.index.filter (·.1 != Path.relativeText ns) }⟩ := by
  rw [GitWorktree.delete]
  refine (ensures_ofExcept _ w).bind ?_
  rintro ns' w₁ ⟨hns, hw₁⟩
  obtain rfl : ns = ns' := Except.ok.inj (hnames.symm.trans hns)
  refine (ensures_get w₁).bind ?_
  rintro _ w₂ ⟨hsame, hw₂⟩
  obtain rfl := hsame.trans hw₁
  obtain rfl := hw₂.trans hw₁
  refine (ensures_onDisk _ w₂).bind ?_
  rintro _ w₃ ⟨hdeleted, hw₃⟩
  split
  · rename_i hlisted
    have hdropped := hdrops (Option.isSome_iff_ne_none.mp hlisted)
    refine (ensures_get w₃).bind ?_
    rintro _ w₄ ⟨hsame, hw₄⟩
    obtain rfl := hsame.trans hw₃
    obtain rfl := hw₄.trans hw₃
    dsimp only
    cases hremoval : w₂.repository.index.removal w₂.repository.top (Path.relativeText ns) with
    | error reason => exact fun _ h => nomatch h
    | ok index =>
        refine (ensures_modify _ _).mono fun _ w₅ hw₅ => ⟨hdeleted, ?_⟩
        rw [hw₅, hdropped index hremoval]
  · rename_i hunlisted
    refine ensures_pure ⟨hdeleted, ?_⟩
    rw [hw₃, filter_of_lookup_eq_none (Option.not_isSome_iff_eq_none.mp hunlisted)]

/-- All that a change does. -/
structure Touched (g : GitWorktree) (w : Worktree) (t : Touch) (w₁ : Worktree) : Prop where
  names : t.names.LeadsOn
  outside : t.names.head? ≠ some Git.metadataName
  short : (Location.ofPath (g.files.root ++ t.names)).IsShort
  spares : w.disk.Spares (g.files.root ++ t.names) w₁.disk
  written : ∀ text, t.text = some text →
    w₁.disk.fileAt (g.files.root ++ t.names) = some (Utf8.encode text)
  deleted : t.text = none → w₁.disk = w.disk.erase (g.files.root ++ t.names)
  repository : w₁.repository = w.repository.touch t
  current : w₁.current = w.current.touch t

/-- Every file that is listed is on the disk with the bytes that are listed, and is listed once. -/
structure Lists (g : GitWorktree) (w : Worktree) : Prop where
  once : (w.repository.index.map (·.1)).Nodup
  names : ∀ p id, (p, id) ∈ w.repository.index → Path.IsNormal (Text.splitOn '/' p)
  files : ∀ p id, (p, id) ∈ w.repository.index → ∃ bs,
    w.disk.fileAt (g.files.root ++ Text.splitOn '/' p) = some bs ∧ id = Digest.blobId bs ∧
      (id, bs) ∈ w.repository.blobs

/-- The working tree is where the store looks for it, and its files are those that are listed. -/
structure Sound (g : GitWorktree) (w : Worktree) : Prop where
  root : g.files.root.IsNormal
  top : w.repository.top = g.files.root
  directory : w.disk.get? g.files.root = some .directory
  lists : g.Lists w

theorem Sound.isPlain (h : g.Sound w) (hns : ns.IsNormal) : (g.files.root ++ ns).IsPlain :=
  (Path.isNormal_append.mpr ⟨h.root, hns⟩).isPlain

theorem append_ne_append {root ms : Path} (h : ns ≠ ms) : root ++ ns ≠ root ++ ms :=
  fun hsame => h (List.append_cancel_left hsame)

/-- No file is at the root itself, where a directory is. -/
theorem ne_nil_of_fileAt {d : Disk} {root : Path} {bs : Bytes} (hplain : (root ++ ns).IsPlain)
    (hdirectory : d.get? root = some .directory) (hfile : d.fileAt (root ++ ns) = some bs) : ns ≠ [] := by
  rintro rfl
  rw [List.append_nil] at hfile hplain
  cases hdirectory.symm.trans (get?_of_fileAt hplain hfile)

theorem outside_of_head? (htop : w.repository.top = g.files.root)
    (h : ns.head? ≠ some Git.metadataName) : ¬ w.repository.own [] <+: g.files.root ++ ns := by
  rw [Git.Repository.own, htop]
  intro hprefix
  have hfirst := (List.prefix_append_right_inj _).mp hprefix
  cases ns with
  | nil => exact absurd hfirst.length_le (by simp)
  | cons n ns => exact h (congrArg some (List.cons_prefix_cons.mp hfirst).1.symm)

theorem current_of_sameOwn {t : Touch} (hown : w.repository.SameOwn w.disk w₁.disk)
    (hrepository : w₁.repository = w.repository.touch t) : w₁.current = w.current.touch t := by
  rw [Worktree.current, hrepository, Git.Repository.readBack_touch]
  exact congrArg (fun fs => Git.Repository.touch { w.repository with ownFiles := fs } t) hown

theorem touched_of_step (h : g.Sound w) (hstep : Step g w t w₁) : g.Touched w t w₁ := by
  cases hstep with
  | @write path text ns token made hnames houtside hmade =>
      have hresolve := resolve_of_names hnames
      have hnormal := isNormal_of_names h.root hnames
      obtain ⟨hwrite, hleft⟩ := ensures_write hnames text token w made hmade
      have hfile := (LocalFiles.fileAt_of_write hnormal.isPlain hresolve hwrite).1
      have hspares := LocalFiles.spares_write (d := w.disk) hresolve hnormal.isPlain text token
      have hown := LocalFiles.sameOwn_write hresolve hnormal.isPlain (outside_of_head? h.top houtside)
        text token w.disk
      have hne := ne_nil_of_fileAt hnormal.isPlain (hspares.hasDirectories _ h.directory) hfile
      rw [hleft]
      refine ⟨⟨hne, (Path.isNormal_append.mp hnormal).2⟩, houtside, isShort_of_fileAt hfile, hspares, ?_,
        nofun, rfl, current_of_sameOwn hown rfl⟩
      rintro text' ⟨⟩
      exact hfile
  | @delete path ns token hnames houtside hdrops hmade =>
      have hresolve := resolve_of_names hnames
      have hnormal := isNormal_of_names h.root hnames
      obtain ⟨hdelete, hleft⟩ := ensures_delete hnames token hdrops () hmade
      obtain ⟨⟨bs, hfile⟩, herase⟩ := LocalFiles.erase_of_delete hresolve hnormal.isPlain hdelete
      have hspares := LocalFiles.spares_delete (d := w.disk) hresolve hnormal.isPlain token
      have hown := Git.Repository.sameOwn_erase (outside_of_head? h.top houtside) w.disk
      have hne := ne_nil_of_fileAt hnormal.isPlain h.directory hfile
      rw [hleft]
      rw [herase] at hspares ⊢
      exact ⟨⟨hne, (Path.isNormal_append.mp hnormal).2⟩, houtside, isShort_of_fileAt hfile, hspares,
        nofun, fun _ => rfl, rfl, current_of_sameOwn hown rfl⟩

/-! ## What a change keeps -/

/-- What is listed after a change is what was changed, or was listed before. -/
theorem Touched.mem_index (h : g.Touched w t w₁) {p : Text} {id : Git.ObjectId}
    (hmem : (p, id) ∈ w₁.repository.index) :
    (p, id) ∈ w.repository.index ∧ Text.splitOn '/' p ≠ t.names ∨
      p = Path.relativeText t.names ∧ ∃ text, t.text = some text ∧ id = Digest.blobId (Utf8.encode text) ∧
        (id, Utf8.encode text) ∈ w₁.repository.blobs := by
  have hkept : (p, id) ∈ w.repository.index.filter (·.1 != Path.relativeText t.names) →
      (p, id) ∈ w.repository.index ∧ Text.splitOn '/' p ≠ t.names := by
    intro hmem
    obtain ⟨hmem, hne⟩ := List.mem_filter.mp hmem
    refine ⟨hmem, fun hnames => bne_iff_ne.mp hne ?_⟩
    rw [← hnames, Path.relativeText_splitOn]
  rw [h.repository] at hmem ⊢
  obtain ⟨ns, _ | text⟩ := t
  · exact .inl (hkept hmem)
  · rcases List.mem_cons.mp hmem with heq | hmem
    · cases heq
      exact .inr ⟨rfl, text, rfl, rfl, List.mem_cons_self⟩
    · exact .inl (hkept hmem)

theorem Lists.of_touched (hlists : g.Lists w) (hroot : g.files.root.IsNormal) (h : g.Touched w t w₁) :
    g.Lists w₁ where
  once := h.repository ▸ Git.Repository.nodup_touch hlists.once t
  names p id hmem := by
    rcases h.mem_index hmem with ⟨hmem, -⟩ | ⟨rfl, -⟩
    · exact hlists.names p id hmem
    · rw [h.names.splitOn]
      exact h.names.2
  files p id hmem := by
    rcases h.mem_index hmem with ⟨hmem, hne⟩ | ⟨rfl, text, htext, hid, hblob⟩
    · obtain ⟨bs, hfile, hid, hblob⟩ := hlists.files p id hmem
      have hplain := Path.isNormal_append.mpr ⟨hroot, hlists.names p id hmem⟩ |>.isPlain
      refine ⟨bs, h.spares.fileAt hplain (append_ne_append hne) hfile, hid, ?_⟩
      rw [h.repository]
      exact Git.Repository.blobs_subset_touch _ _ hblob
    · rw [h.names.splitOn]
      exact ⟨_, h.written text htext, hid, hblob⟩

theorem Sound.of_touched (hsound : g.Sound w) (h : g.Touched w t w₁) : g.Sound w₁ where
  root := hsound.root
  top := by
    rw [h.repository, ← hsound.top]
    obtain ⟨ns, _ | text⟩ := t <;> rfl
  directory := h.spares.hasDirectories _ hsound.directory
  lists := hsound.lists.of_touched hsound.root h

/-- A file that is not changed stays on the disk. -/
theorem Touched.fileAt (h : g.Touched w t w₁) (hroot : g.files.root.IsNormal) (hns : ns.IsNormal)
    (hne : ns ≠ t.names) {bs : Bytes} (hfile : w.disk.fileAt (g.files.root ++ ns) = some bs) :
    w₁.disk.fileAt (g.files.root ++ ns) = some bs :=
  h.spares.fileAt (Path.isNormal_append.mpr ⟨hroot, hns⟩).isPlain (append_ne_append hne) hfile

/-- And in the index. -/
theorem Touched.lookup (h : g.Touched w t w₁) (hns : ns.LeadsOn) (hne : ns ≠ t.names) :
    w₁.repository.index.lookup (Path.relativeText ns) =
      w.repository.index.lookup (Path.relativeText ns) := by
  rw [h.repository, Git.Repository.lookup_touch, if_neg]
  exact fun hsame => hne ((hns.relativeText_inj h.names).mp hsame)

/-- Where nothing is nothing comes, unless something is written there or below. -/
theorem Touched.get?_eq_none (h : g.Touched w t w₁) (hne : g.files.root ++ ns ≠ [])
    (hway : t.text.isSome → ¬ ns <+: t.names) (hnone : w.disk.get? (g.files.root ++ ns) = none) :
    w₁.disk.get? (g.files.root ++ ns) = none := by
  cases htext : t.text with
  | none =>
      rw [h.deleted htext]
      by_cases hsame : g.files.root ++ ns = g.files.root ++ t.names
      · rw [← hsame, get?_erase_self _ hne]
      · rw [get?_erase_of_ne _ hsame, hnone]
  | some text =>
      have hoff := hway (by rw [htext]; rfl)
      refine h.spares.get?_eq_none (append_ne_append fun hsame => hoff (hsame ▸ List.prefix_rfl)) ?_ hnone
      exact fun hprefix => hoff ((List.prefix_append_right_inj _).mp hprefix)

/-! ## Rows of changes -/

/-- **Throughout, the files that are listed are those on the disk**, and the repository is what the changes
make of it. -/
theorem sound_of_steps (h : g.Sound w) (hsteps : Steps g ts w w₁) :
    g.Sound w₁ ∧ w₁.current = ts.foldl Git.Repository.touch w.current := by
  -- the rest of the row starts from what the first change has left, which is sound again
  induction hsteps with
  | nil w => exact ⟨h, rfl⟩
  | cons hstep hsteps ih =>
      have htouched := touched_of_step h hstep
      obtain ⟨hsound, hcurrent⟩ := ih (h.of_touched htouched)
      exact ⟨hsound, by rw [hcurrent, htouched.current, List.foldl_cons]⟩

/-- A file that no change concerns stays as it is, on the disk and in the index. -/
theorem kept_of_steps (h : g.Sound w) (hsteps : Steps g ts w w₁) (hns : ns.LeadsOn)
    (hoff : ∀ t ∈ ts, t.names ≠ ns) :
    (∀ bs, w.disk.fileAt (g.files.root ++ ns) = some bs →
      w₁.disk.fileAt (g.files.root ++ ns) = some bs) ∧
      w₁.repository.index.lookup (Path.relativeText ns) =
        w.repository.index.lookup (Path.relativeText ns) := by
  induction hsteps with
  | nil w => exact ⟨fun _ hfile => hfile, rfl⟩
  | cons hstep hsteps ih =>
      have htouched := touched_of_step h hstep
      have hne := (hoff _ List.mem_cons_self).symm
      obtain ⟨hfile, hlookup⟩ := ih (h.of_touched htouched) fun t ht => hoff t (List.mem_cons_of_mem _ ht)
      exact ⟨fun bs hbs => hfile bs (htouched.fileAt h.root hns.2 hne hbs),
        hlookup.trans (htouched.lookup hns hne)⟩

/-- Where nothing is nothing comes by changes that write neither there nor below. -/
theorem get?_of_steps (h : g.Sound w) (hsteps : Steps g ts w w₁) (hne : g.files.root ++ ns ≠ [])
    (hoff : ∀ t ∈ ts, t.text.isSome → ¬ ns <+: t.names)
    (hnone : w.disk.get? (g.files.root ++ ns) = none) : w₁.disk.get? (g.files.root ++ ns) = none := by
  induction hsteps with
  | nil w => exact hnone
  | cons hstep hsteps ih =>
      have htouched := touched_of_step h hstep
      refine ih (h.of_touched htouched) (fun t ht => hoff t (List.mem_cons_of_mem _ ht)) ?_
      exact htouched.get?_eq_none hne (hoff _ List.mem_cons_self) hnone

theorem split_steps {before after : List Touch} (hsteps : Steps g (before ++ after) w w₁) :
    ∃ w', Steps g before w w' ∧ Steps g after w' w₁ := by
  induction before generalizing w with
  | nil => exact ⟨w, .nil w, hsteps⟩
  | cons t before ih =>
      cases hsteps with
      | cons hstep hsteps =>
          obtain ⟨w', hbefore, hafter⟩ := ih hsteps
          exact ⟨w', .cons hstep hbefore, hafter⟩

/-- Where listed files are those on the disk a path without special characters is taken out alone. -/
theorem Sound.drops (h : g.Sound w) {p : Text} (hp : Git.Pathspec.IsOrdinary p) :
    Drops w.repository p := by
  intro hlisted index hindex
  obtain ⟨id, hid⟩ := Option.ne_none_iff_exists'.mp hlisted
  have hplain : ∀ {p id}, (p, id) ∈ w.repository.index →
      (g.files.root ++ Text.splitOn '/' p).IsPlain := fun hmem => h.isPlain (h.lists.names _ _ hmem)
  have hbelow : ∀ e ∈ w.repository.index, ¬ p ++ ['/'] <+: e.1 := by
    rintro ⟨q, id'⟩ he ⟨rest, hrest⟩
    obtain rfl : p ++ '/' :: rest = q := by
      rw [← List.singleton_append, ← List.append_assoc]
      exact hrest
    have hmem := mem_of_lookup hid
    obtain ⟨bs, hfile, -, -⟩ := h.lists.files p id hmem
    obtain ⟨bs', hfile', -, -⟩ := h.lists.files _ id' he
    have hinside := hplain he
    rw [Text.splitOn_append, ← List.append_assoc] at hfile' hinside
    -- a file stands where a directory would have to be
    have hdirectory := isDirectory_of_fileAt hinside hfile' (List.prefix_append _ _)
      fun hsame => Text.splitOn_ne_nil '/' rest (List.self_eq_append_right.mp hsame)
    rw [get?_of_fileAt (hplain hmem) hfile] at hdirectory
    cases hdirectory
  rw [Git.Snapshot.removal_of_isOrdinary hp _ hid hbelow] at hindex
  exact (Except.ok.inj hindex).symm

/-- **The text that was written last** is on the disk, and its bytes are listed. -/
theorem written_of_steps (h : g.Sound w) {before after : List Touch}
    (hsteps : Steps g (before ++ ⟨ns, some text⟩ :: after) w w₁) (hlast : ∀ t ∈ after, t.names ≠ ns) :
    ns.LeadsOn ∧ ns.head? ≠ some Git.metadataName ∧
      w₁.disk.fileAt (g.files.root ++ ns) = some (Utf8.encode text) ∧
      w₁.repository.index.lookup (Path.relativeText ns) = some (Digest.blobId (Utf8.encode text)) := by
  -- the change itself puts the text there, and those behind it keep the file
  obtain ⟨w', hbefore, hrest⟩ := split_steps hsteps
  have hsound := (sound_of_steps h hbefore).1
  cases hrest with
  | cons hstep hafter =>
      have htouched := touched_of_step hsound hstep
      obtain ⟨hfile, hlookup⟩ := kept_of_steps (hsound.of_touched htouched) hafter htouched.names hlast
      refine ⟨htouched.names, htouched.outside, hfile _ (htouched.written text rfl), hlookup.trans ?_⟩
      rw [htouched.repository, Git.Repository.lookup_touch, if_pos rfl]
      rfl

/-- **Where a file was deleted last** there is nothing, if nothing was written there or below since. -/
theorem deleted_of_steps (h : g.Sound w) {before after : List Touch}
    (hsteps : Steps g (before ++ ⟨ns, none⟩ :: after) w w₁)
    (hlast : ∀ t ∈ after, t.text.isSome → ¬ ns <+: t.names) :
    ns.LeadsOn ∧ ns.head? ≠ some Git.metadataName ∧
      (Location.ofPath (g.files.root ++ ns)).IsShort ∧ w₁.disk.get? (g.files.root ++ ns) = none := by
  obtain ⟨w', hbefore, hrest⟩ := split_steps hsteps
  have hsound := (sound_of_steps h hbefore).1
  cases hrest with
  | cons hstep hafter =>
      have htouched := touched_of_step hsound hstep
      have hne : g.files.root ++ ns ≠ [] := List.append_ne_nil_of_right_ne_nil _ htouched.names.1
      refine ⟨htouched.names, htouched.outside, htouched.short, ?_⟩
      refine get?_of_steps (hsound.of_touched htouched) hafter hne hlast ?_
      rw [htouched.deleted rfl, get?_erase_self _ hne]

end GitWorktree

end Emend
