import Emend.Proofs.Git.Heads
import Emend.Proofs.Git.Pathspecs
import Emend.Proofs.Store.Touches

/-!
# What a commit records

After any row of writes and deletions a commit records the index, which lists the files on the disk, and
`HEAD` leads to it. So a text that was written last is fetched from the disk and at `HEAD`, a file that was
deleted last is found at neither, and a file that was left alone is at `HEAD` what it was before
(`records_of_steps`). A directory can come to stand where a file was deleted, when a file is written below
it; that is no missing file any more, and is refused (`refused_of_nested`).
-/

namespace Emend

open Git.Repository (headName)

/-- The files of the last commit. There are none if nothing was committed yet. -/
def Worktree.headTree (w : Worktree) : Git.Snapshot := (w.current.head?.map (·.2.tree)).getD []

/-- No two contents that the repository holds have one identifier. -/
def Git.Repository.TellsApart (r : Git.Repository) : Prop :=
  ∀ id bs bs', (id, bs) ∈ r.blobs → (id, bs') ∈ r.blobs → bs = bs'

theorem Git.Repository.tellsApart_of_nodup {r : Git.Repository} (h : (r.blobs.map (·.1)).Nodup) :
    r.TellsApart := fun _ _ _ hbs hbs' => congrArg Prod.snd (List.inj_on_of_nodup_map h hbs hbs' rfl)

/-- The commit of the index that comes next. -/
def Git.Repository.nextCommit (r : Git.Repository) (message : Text) : Git.Commit where
  tree := r.index
  parents := (r.head?.map (·.1)).toList
  author := r.author
  committer := r.committer
  time := r.time
  message

/-- The repository once it is made. -/
def Git.Repository.recorded (r : Git.Repository) (message : Text) : Git.Repository :=
  { r.storeTree.moveHead (r.nextCommit message).id (r.nextCommit message) with
    commits := ((r.nextCommit message).id, r.nextCommit message) :: r.commits }

namespace GitWorktree

open Act Disk

variable {g : GitWorktree} {w w₀ w₁ : Worktree} {path text message : Text} {ns : Path} {c : Git.Commit}
  {r : Git.Repository} {id : Git.ObjectId} {bs : Bytes} {ts : List Touch}

/-! ## Fetches at HEAD -/

/-- What is fetched at `HEAD` depends on what was committed there and on nothing else. -/
theorem result_fetch_headName (hhead : w.current.head? = some (c.id, c)) (hnames : g.names path = .ok ns) :
    (g.fetch path (some headName) w).result = match committed? w.current c ns with
      | none => .ok none
      | some (bs, id) => match Utf8.decode bs with
        | .ok text => .ok (some ⟨text, id⟩)
        | .error e => .error (.store ⟨'\'' :: path ++ '\'' :: (" at ".toList ++ headName) ++
            " is not valid utf-8 text: ".toList ++ e.message, some path⟩) := by
  have hcommit : commitAt w.current path headName = .ok c := by
    rw [commitAt, Git.Repository.revision_headName hhead]
  have hinspect : Worktree.inspect w = ⟨.ok w.current, w, []⟩ := rfl
  rw [fetch, fetchAt, ofExcept_bind hnames, bind_of_ok hinspect, ofExcept_bind hcommit]
  cases committed? w.current c ns with
  | none => rfl
  | some found =>
      obtain ⟨bs, id⟩ := found
      dsimp only
      rw [LocalFiles.decodeText]
      cases Utf8.decode bs with
      | ok text => rfl
      | error e => rfl

theorem committed?_of_lookup (hns : ns.LeadsOn)
    (hway : ∀ ms, ms <+: ns → ms ≠ [] → ms ≠ ns → c.tree.lookup (Path.relativeText ms) = none)
    (hfile : c.tree.lookup (Path.relativeText ns) = some id) (hblob : r.blobs.lookup id = some bs) :
    committed? r c ns = some (bs, id) := by
  have hat : c.tree.at? (Path.relativeText ns) = .ok (.blob id) := by
    rw [Git.Snapshot.at?, hns.splitOn]
    exact Git.Snapshot.follow_of_lookup _ hns.1 hns.not_mem_slash hway hfile
  rw [committed?, if_neg (by simpa using hns.1), hat]
  show (r.blobs.lookup id).map (·, id) = _
  rw [hblob]
  rfl

theorem committed?_of_empty (hns : ns.LeadsOn)
    (hempty : ∀ e ∈ c.tree, ¬ ns <+: Text.splitOn '/' e.1) : committed? r c ns = none := by
  obtain ⟨n, hat⟩ := Git.Snapshot.follow_of_empty (Path.relativeText ns) hns.1
    hns.not_mem_slash hempty
  rw [committed?, if_neg (by simpa using hns.1), Git.Snapshot.at?, hns.splitOn, hat]
  rfl

/-- No file is listed on the way to a file. -/
theorem Sound.lookup_eq_none (h : g.Sound w) (hns : ns.LeadsOn)
    (hfile : w.disk.fileAt (g.files.root ++ ns) = some bs) :
    ∀ ms : Path, ms <+: ns → ms ≠ [] → ms ≠ ns →
      w.repository.index.lookup (Path.relativeText ms) = none := by
  intro ms hprefix hne hsame
  rw [Option.eq_none_iff_forall_ne_some]
  intro id hid
  have hms : ms.LeadsOn := ⟨hne, Path.IsNormal.of_prefix hns.2 hprefix⟩
  obtain ⟨bs', hfile', -, -⟩ := h.lists.files _ id (mem_of_lookup hid)
  rw [hms.splitOn] at hfile'
  have hdirectory := isDirectory_of_fileAt (h.isPlain hns.2) hfile
    ((List.prefix_append_right_inj _).mpr hprefix) (append_ne_append hsame)
  rw [get?_of_fileAt (h.isPlain hms.2) hfile'] at hdirectory
  cases hdirectory

/-- No file is listed at or below a place where nothing is. -/
theorem Sound.not_prefix (h : g.Sound w) (hnone : w.disk.get? (g.files.root ++ ns) = none) :
    ∀ e ∈ w.repository.index, ¬ ns <+: Text.splitOn '/' e.1 := by
  intro e he hprefix
  obtain ⟨bs, hfile, -, -⟩ := h.lists.files e.1 e.2 he
  have hplain := h.isPlain (h.lists.names e.1 e.2 he)
  exact not_prefix_of_fileAt hplain hfile hnone ((List.prefix_append_right_inj _).mpr hprefix)

/-! ## Commits -/

/-- The refusal of a commit that would record nothing new. -/
def nothingStaged : Failure := .store ⟨"No staged changes to commit.".toList, none⟩

theorem commit_of_unstaged (h : w.current.hasStaged = false) (message : Text) :
    (commit message none w).result = .error nothingStaged := by
  have hinspect : Worktree.inspect w = ⟨.ok w.current, w, []⟩ := rfl
  rw [commit, bind_of_ok hinspect, h]
  rfl

theorem commit_of_staged (h : w.current.hasStaged = true) (message : Text) :
    (commit message none w).result = .ok (w.current.nextCommit message).id ∧
      (commit message none w).state =
        ⟨(w.current.recorded message).writeBack w.disk, w.current.recorded message⟩ := by
  have hinspect : Worktree.inspect w = ⟨.ok w.current, w, []⟩ := rfl
  rw [commit, bind_of_ok hinspect, h]
  exact ⟨rfl, rfl⟩

/-- Only then is it refused so. -/
theorem commit_eq_nothingStaged_iff (message : Text) :
    (commit message none w).result = .error nothingStaged ↔ w.current.hasStaged = false := by
  constructor
  · intro herror
    rw [← Bool.not_eq_true]
    intro htrue
    rw [(commit_of_staged htrue message).1] at herror
    cases herror
  · exact fun hfalse => commit_of_unstaged hfalse message

/-- A commit that is answered has recorded the index. -/
theorem state_of_commit (h : (commit message none w).result = .ok id) :
    (commit message none w).state =
      ⟨(w.current.recorded message).writeBack w.disk, w.current.recorded message⟩ := by
  cases hstaged : w.current.hasStaged with
  | true => exact (commit_of_staged hstaged message).2
  | false =>
      rw [commit_of_unstaged hstaged message] at h
      cases h

/-- The last commit, the index and the files that are listed there agree. Other files may be on the
disk. -/
structure Agrees (g : GitWorktree) (w : Worktree) : Prop where
  sound : g.Sound w
  /-- The disk tells of each path once. -/
  once : (w.disk.entries.map (·.1)).Nodup
  head : ∃ c, w.current.head? = some (c.id, c)
  treeOnce : (w.headTree.map (·.1)).Nodup
  tree : ∀ p, w.headTree.lookup p = w.repository.index.lookup p

theorem headTree_of_head? (h : w.current.head? = some (id, c)) : w.headTree = c.tree := by
  rw [Worktree.headTree, h]
  rfl

/-- What holds at every time between an agreement and the next commit. -/
structure Prepared (g : GitWorktree) (w₀ w : Worktree) : Prop where
  sound : g.Sound w
  ownFiles : (w.current.ownFiles.map (·.1)).Nodup
  head : w.current.head? = w₀.current.head?
  blobs : w₀.repository.blobs ⊆ w.repository.blobs

theorem prepared_of_steps (h : g.Agrees w₀) (hsteps : Steps g ts w₀ w) : g.Prepared w₀ w := by
  obtain ⟨hsound, hcurrent⟩ := sound_of_steps h.sound hsteps
  obtain ⟨hfiles, hhead, hblobs⟩ := Git.Repository.foldl_touch ts w₀.current
  rw [← hcurrent] at hfiles hhead hblobs
  exact ⟨hsound, hfiles ▸ Git.Repository.nodup_ownFiles w₀.repository h.once, hhead, hblobs⟩

/-- The index is the last commit's tree exactly when there is nothing to commit. -/
theorem hasStaged_eq_false_iff (h : g.Prepared w₀ w) (hhead : w.current.head? = some (id, c))
    (honce : (c.tree.map (·.1)).Nodup) :
    w.current.hasStaged = false ↔ ∀ p, w.repository.index.lookup p = c.tree.lookup p := by
  rw [Git.Repository.hasStaged, hhead]
  dsimp only
  rw [Bool.not_eq_false']
  exact Git.Snapshot.agrees_iff h.sound.lists.once honce

/-- Once the index has been recorded, `HEAD` leads to its commit. -/
theorem head?_of_recorded (h : g.Prepared w₀ w) (hhead : w.current.head? = some (c.id, c))
    (hw₁ : w₁ = ⟨(w.current.recorded message).writeBack w.disk, w.current.recorded message⟩) :
    w₁.current.head? = some ((w.current.nextCommit message).id, w.current.nextCommit message) := by
  rw [hw₁]
  refine Git.Repository.head?_eq_some.mpr ⟨?_, List.lookup_cons_self⟩
  exact Git.Repository.dereference_moveHead (r := w.current.storeTree) h.ownFiles
    (Git.Repository.head?_eq_some.mp hhead).1 (Git.isWritten_id _) _ rfl w.disk

/-- Off the repository's own directory the disk is as it was. -/
theorem sameWay_recorded (h : g.Prepared w₀ w) (houtside : ns.head? ≠ some Git.metadataName) :
    SameWay (g.files.root ++ ns) w.disk ((w.current.recorded message).writeBack w.disk) := by
  intro q hq
  refine (Git.Repository.get?_writeBack_of_outside _ _ fun hown => ?_).symm
  exact outside_of_head? h.sound.top houtside (hown.trans hq)

/-- What a commit comes to, after the changes `ts` from `w₀` to `w`. -/
structure Records (g : GitWorktree) (ts : List Touch) (w₀ w : Worktree) (message : Text) : Prop where
  /-- Until then every file that is listed is on the disk with the same bytes. -/
  listed : g.Lists w
  /-- Nothing is recorded exactly if the index is the tree of the last commit. -/
  refused : (commit message none w).result = .error nothingStaged ↔
    ∀ p, w.repository.index.lookup p = w.headTree.lookup p
  /-- Otherwise the commit is made. -/
  made : (¬ ∀ p, w.repository.index.lookup p = w.headTree.lookup p) →
    ∃ id, (commit message none w).result = .ok id
  /-- Then a text that was written last is fetched from the disk and at `HEAD`, with one token. -/
  written : ∀ id, (commit message none w).result = .ok id → ∀ before after ns text path,
    ts = before ++ ⟨ns, some text⟩ :: after → (∀ t ∈ after, t.names ≠ ns) → g.names path = .ok ns →
    ∀ ref ∈ [none, some headName], (g.fetch path ref (commit message none w).state).result =
      .ok (some ⟨text, Digest.blobId (Utf8.encode text)⟩)
  /-- A file that was deleted last is missing from both, if nothing was written below it since. -/
  deleted : ∀ id, (commit message none w).result = .ok id → ∀ before after ns path,
    ts = before ++ ⟨ns, none⟩ :: after → (∀ t ∈ after, t.text.isSome → ¬ ns <+: t.names) →
    g.names path = .ok ns →
    ∀ ref ∈ [none, some headName],
      (g.fetch path ref (commit message none w).state).result = .ok none
  /-- A file that was recorded before and left alone is the same at `HEAD`. -/
  untouched : ∀ id, (commit message none w).result = .ok id → ∀ p, w₀.headTree.lookup p ≠ none →
    (∀ t ∈ ts, t.names ≠ Text.splitOn '/' p) →
    (commit message none w).state.headTree.lookup p = w₀.headTree.lookup p ∧
      ∀ path, g.names path = .ok (Text.splitOn '/' p) →
        (g.fetch path (some headName) (commit message none w).state).result =
          (g.fetch path (some headName) w₀).result

/-- The bytes of a listed file are committed with it. -/
theorem committed?_of_sound (h : g.Sound w) (hids : r.TellsApart) (hblobs : w.repository.blobs ⊆ r.blobs)
    (hns : ns.LeadsOn) (htree : ∀ p, c.tree.lookup p = w.repository.index.lookup p)
    (hlisted : w.repository.index.lookup (Path.relativeText ns) = some id) :
    ∃ bs, w.disk.fileAt (g.files.root ++ ns) = some bs ∧ (id, bs) ∈ w.repository.blobs ∧
      committed? r c ns = some (bs, id) := by
  obtain ⟨bs, hfile, -, hblob⟩ := h.lists.files _ id (mem_of_lookup hlisted)
  rw [hns.splitOn] at hfile
  refine ⟨bs, hfile, hblob, committed?_of_lookup hns (fun ms hprefix hne hsame => ?_) ?_ ?_⟩
  · rw [htree, h.lookup_eq_none hns hfile ms hprefix hne hsame]
  · rw [htree, hlisted]
  · exact lookup_of_mem (hblobs hblob) fun bs' hbs' => hids id bs' bs hbs' (hblobs hblob)

/-- A text that is on the disk and whose bytes are listed is fetched from the disk and at `HEAD`, once a
commit has been made. -/
theorem fetch_of_recorded (h : g.Prepared w₀ w) (hids : w.repository.TellsApart)
    (hhead : w.current.head? = some (c.id, c))
    (hw₁ : w₁ = ⟨(w.current.recorded message).writeBack w.disk, w.current.recorded message⟩)
    (hns : ns.LeadsOn) (houtside : ns.head? ≠ some Git.metadataName)
    (hfile : w.disk.fileAt (g.files.root ++ ns) = some (Utf8.encode text))
    (hlisted : w.repository.index.lookup (Path.relativeText ns) =
      some (Digest.blobId (Utf8.encode text))) (hnames : g.names path = .ok ns) :
    ∀ ref ∈ [none, some headName], (g.fetch path ref w₁).result =
      .ok (some ⟨text, Digest.blobId (Utf8.encode text)⟩) := by
  have hplain := h.sound.isPlain hns.2
  have hdisk : (g.fetch path none w₁).result =
      .ok (some ⟨text, Digest.blobId (Utf8.encode text)⟩) := by
    have hkept : w₁.disk.fileAt (g.files.root ++ ns) = some (Utf8.encode text) := by
      rw [hw₁, fileAt, ← (sameWay_recorded h houtside).readFile hplain]
      exact hfile
    exact LocalFiles.fetch_of_encode (resolve_of_names hnames) hkept
  have hcommitted : (g.fetch path (some headName) w₁).result =
      .ok (some ⟨text, Digest.blobId (Utf8.encode text)⟩) := by
    -- the index that was recorded lists the bytes on the disk, so those were committed
    obtain ⟨bs, hbytes, -, hfound⟩ := committed?_of_sound (r := w₁.current)
      (c := w.current.nextCommit message) h.sound (hw₁ ▸ hids) (hw₁ ▸ List.Subset.refl _) hns
      (fun _ => rfl) hlisted
    obtain rfl : bs = Utf8.encode text := Option.some.inj (hbytes.symm.trans hfile)
    rw [result_fetch_headName (head?_of_recorded h hhead hw₁) hnames, hfound]
    dsimp only
    rw [Utf8.decode_encode]
  intro ref href
  rcases List.mem_pair.mp href with rfl | rfl
  · exact hdisk
  · exact hcommitted

/-- Where nothing is nothing is fetched, neither from the disk nor at `HEAD`. -/
theorem fetch_of_missing (h : g.Prepared w₀ w) (hhead : w.current.head? = some (c.id, c))
    (hw₁ : w₁ = ⟨(w.current.recorded message).writeBack w.disk, w.current.recorded message⟩)
    (hns : ns.LeadsOn) (houtside : ns.head? ≠ some Git.metadataName)
    (hshort : (Location.ofPath (g.files.root ++ ns)).IsShort)
    (hnone : w.disk.get? (g.files.root ++ ns) = none) (hnames : g.names path = .ok ns) :
    ∀ ref ∈ [none, some headName], (g.fetch path ref w₁).result = .ok none := by
  have hplain := h.sound.isPlain hns.2
  have hdisk : (g.fetch path none w₁).result = .ok none := by
    have hkept : w₁.disk.get? (g.files.root ++ ns) = none := by
      rw [hw₁, ← sameWay_recorded h houtside _ List.prefix_rfl]
      exact hnone
    exact LocalFiles.fetch_of_look_none (resolve_of_names hnames)
      (look_of_get?_eq_none hplain hshort hkept)
  have hcommitted : (g.fetch path (some headName) w₁).result = .ok none := by
    rw [result_fetch_headName (head?_of_recorded h hhead hw₁) hnames,
      committed?_of_empty hns (h.sound.not_prefix hnone)]
  intro ref href
  rcases List.mem_pair.mp href with rfl | rfl
  · exact hdisk
  · exact hcommitted

/-- A file that was listed before and is listed with the same identifier is fetched at `HEAD` as before. -/
theorem fetch_of_untouched (h : g.Agrees w₀) (hprepared : g.Prepared w₀ w)
    (hids : w.repository.TellsApart) (hhead : w.current.head? = some (c.id, c))
    (hw₁ : w₁ = ⟨(w.current.recorded message).writeBack w.disk, w.current.recorded message⟩)
    (hns : ns.LeadsOn) (hlisted₀ : w₀.repository.index.lookup (Path.relativeText ns) = some id)
    (hlisted : w.repository.index.lookup (Path.relativeText ns) = some id)
    (hnames : g.names path = .ok ns) :
    (g.fetch path (some headName) w₁).result = (g.fetch path (some headName) w₀).result := by
  have hhead₀ : w₀.current.head? = some (c.id, c) := hprepared.head.symm.trans hhead
  have hids₀ : w₀.repository.TellsApart := fun id bs bs' hbs hbs' =>
    hids id bs bs' (hprepared.blobs hbs) (hprepared.blobs hbs')
  obtain ⟨bs₀, -, hblob₀, hfound₀⟩ := committed?_of_sound (r := w₀.current) (c := c) h.sound hids₀
    (List.Subset.refl _) hns (headTree_of_head? hhead₀ ▸ h.tree) hlisted₀
  obtain ⟨bs, -, hblob, hfound⟩ := committed?_of_sound (r := w₁.current)
    (c := w.current.nextCommit message) hprepared.sound (hw₁ ▸ hids) (hw₁ ▸ List.Subset.refl _) hns
    (fun _ => rfl) hlisted
  -- one identifier, so one content, for no contents are lost on the way
  obtain rfl : bs = bs₀ := hids id bs bs₀ hblob (hprepared.blobs hblob₀)
  rw [result_fetch_headName hhead₀ hnames, hfound₀,
    result_fetch_headName (head?_of_recorded hprepared hhead hw₁) hnames, hfound]

/-- **A commit records the files as they were left.** -/
theorem records_of_steps (h : g.Agrees w₀) (hsteps : Steps g ts w₀ w)
    (hids : w.repository.TellsApart) (message : Text) : g.Records ts w₀ w message := by
  obtain ⟨c, hhead₀⟩ := h.head
  have hprepared := prepared_of_steps h hsteps
  have hhead : w.current.head? = some (c.id, c) := hprepared.head.trans hhead₀
  have hstaged := hasStaged_eq_false_iff hprepared hhead (headTree_of_head? hhead₀ ▸ h.treeOnce)
  rw [← headTree_of_head? hhead] at hstaged
  refine ⟨hprepared.sound.lists, (commit_eq_nothingStaged_iff message).trans hstaged,
    fun hdiffers => ?_, ?_, ?_, ?_⟩
  · cases hcase : w.current.hasStaged with
    | true => exact ⟨_, (commit_of_staged hcase message).1⟩
    | false => exact absurd (hstaged.mp hcase) hdiffers
  · rintro id hid before after ns text path rfl hlast hnames
    obtain ⟨hns, houtside, hfile, hlisted⟩ := written_of_steps h.sound hsteps hlast
    exact fetch_of_recorded hprepared hids hhead (state_of_commit hid) hns houtside hfile hlisted hnames
  · rintro id hid before after ns path rfl hlast hnames
    obtain ⟨hns, houtside, hshort, hnone⟩ := deleted_of_steps h.sound hsteps hlast
    exact fetch_of_missing hprepared hhead (state_of_commit hid) hns houtside hshort hnone hnames
  · intro id hid p hrecorded hoff
    have hnewTree : (commit message none w).state.headTree = w.repository.index :=
      headTree_of_head? (head?_of_recorded hprepared hhead (state_of_commit hid))
    obtain ⟨blob, hblob⟩ := Option.ne_none_iff_exists'.mp hrecorded
    rw [h.tree] at hblob
    have hns := Path.leadsOn_splitOn (h.sound.lists.names p blob (mem_of_lookup hblob))
    have hlookup := (kept_of_steps h.sound hsteps hns hoff).2
    have hlisted₀ : w₀.repository.index.lookup (Path.relativeText (Text.splitOn '/' p)) = some blob := by
      rw [Path.relativeText_splitOn, hblob]
    refine ⟨?_, fun path hnames => ?_⟩
    · rw [hnewTree, h.tree, ← Path.relativeText_splitOn p, hlookup]
    · exact fetch_of_untouched h hprepared hids hhead (state_of_commit hid) hns hlisted₀
        (hlookup.trans hlisted₀) hnames

/-! ## A repository for samples -/

def sampleTree : Git.Snapshot := [("a".toList, Digest.blobId (Utf8.encode "one".toList))]

def samplePerson : Git.Person := ⟨"n".toList, "n@x".toList⟩

def sampleCommit : Git.Commit where
  tree := sampleTree
  parents := []
  author := samplePerson
  committer := samplePerson
  time := "1780000000 +0000".toList
  message := "first".toList

/-- A repository in which one file was committed, and no other file has been made. -/
def sampleWorktree : Worktree where
  disk :=
    { entries :=
        [(["w"], .directory), (["w", "a"], .file (Utf8.encode "one".toList)), (["w", ".git"], .directory),
          (["w", ".git", "HEAD"], .file (Utf8.encode "ref: refs/heads/main\n".toList)),
          (["w", ".git", "refs"], .directory), (["w", ".git", "refs", "heads"], .directory),
          (["w", ".git", "refs", "heads", "main"], .file (Utf8.encode (sampleCommit.id ++ ['\n'])))].map
          fun (names, e) => (names.map String.toList, e)
      cwd := []
      home := [] }
  repository :=
    { top := LocalFiles.sampleRoot
      blobs := [(Digest.blobId (Utf8.encode "one".toList), Utf8.encode "one".toList)]
      trees := [sampleTree]
      commits := [(sampleCommit.id, sampleCommit)]
      index := sampleTree
      author := samplePerson
      committer := samplePerson
      time := "1780000000 +0000".toList }

def sampleGit : GitWorktree := ⟨LocalFiles.sampleFiles⟩

theorem head?_sample : sampleWorktree.current.head? = some (sampleCommit.id, sampleCommit) := by
  have hfile : ∀ {names : Path} {bs : Bytes},
      sampleWorktree.disk.get? (sampleWorktree.repository.own names) = some (.file bs) →
        sampleWorktree.current.ownFiles.lookup names = some bs := fun h =>
    Git.Repository.lookup_readBack sampleWorktree.repository h
  have hmain : Git.Reference.read sampleWorktree.current.ownFiles "refs/heads/main".toList =
      .ok (.object sampleCommit.id) :=
    (Git.isWritten_id sampleCommit).read (by decide) (hfile rfl)
  have hhead : Git.Reference.read sampleWorktree.current.ownFiles headName =
      .ok (.reference "refs/heads/main".toList) := by
    have hbytes : sampleWorktree.current.ownFiles.lookup (Text.splitOn '/' headName) =
        some (Utf8.encode "ref: refs/heads/main\n".toList) := hfile rfl
    rw [Git.Reference.read, hbytes]
    decide +kernel
  refine Git.Repository.head?_eq_some.mpr ⟨?_, List.lookup_cons_self⟩
  rw [Git.Repository.dereference, show Git.Reference.maxChain = 998 + 1 + 1 from rfl,
    Git.Reference.dereference_of_reference hhead, Git.Reference.dereference_of_object hmain]

theorem agrees_sample : sampleGit.Agrees sampleWorktree where
  sound :=
    { root := LocalFiles.isNormal_sampleFiles
      top := rfl
      directory := rfl
      lists :=
        { once := List.nodup_singleton _
          names := fun p id h => by
            cases List.mem_singleton.mp h
            decide
          files := fun p id h => by
            cases List.mem_singleton.mp h
            exact ⟨_, by decide +kernel, rfl, List.mem_singleton.mpr rfl⟩ } }
  once := by decide +kernel
  head := ⟨sampleCommit, head?_sample⟩
  treeOnce := by
    rw [headTree_of_head? head?_sample]
    exact List.nodup_singleton _
  tree p := by
    rw [headTree_of_head? head?_sample]
    rfl

/-- Its file is deleted. -/
def sampleDeleted : Worktree := (sampleGit.delete "a".toList none sampleWorktree).state

theorem step_sample : Step sampleGit sampleWorktree ⟨["a".toList], none⟩ sampleDeleted := by
  have hplain : ∀ c ∈ Path.relativeText ["a".toList], Git.Pathspec.isWild c = false := by
    intro c hc
    obtain rfl : c = 'a' := List.mem_singleton.mp hc
    decide
  have hdrops : Drops sampleWorktree.repository (Path.relativeText ["a".toList]) :=
    agrees_sample.sound.drops ⟨by decide +kernel, by decide +kernel, hplain⟩
  have hnames : sampleGit.names "a".toList = .ok ["a".toList] := by decide +kernel
  exact .delete hnames (by decide) hdrops (by decide +kernel)

/-- Then another file is written. -/
def sampleWritten (path : String) : Worktree :=
  (sampleGit.write path.toList "two".toList none sampleDeleted).state

theorem steps_sample (path : String) {ns : Path} (hnames : sampleGit.names path.toList = .ok ns)
    (houtside : ns.head? ≠ some Git.metadataName)
    (hmade : (sampleGit.write path.toList "two".toList none sampleDeleted).result.toOption.any
      (fun _ => decide True) = true) :
    Steps sampleGit [⟨["a".toList], none⟩, ⟨ns, some "two".toList⟩] sampleWorktree
      (sampleWritten path) := by
  obtain ⟨made, hwrite, -⟩ := Act.exists_of_answer (P := fun _ => True) hmade
  exact .cons step_sample (.cons (.write hnames houtside hwrite) (.nil _))

/-- A file that was deleted and one that was written instead. -/
theorem records_sample : sampleGit.Agrees sampleWorktree ∧
    Steps sampleGit [⟨["a".toList], none⟩, ⟨["b".toList], some "two".toList⟩] sampleWorktree
      (sampleWritten "b") ∧
    (sampleWritten "b").repository.TellsApart ∧
    Records sampleGit [⟨["a".toList], none⟩, ⟨["b".toList], some "two".toList⟩] sampleWorktree
      (sampleWritten "b") "second".toList := by
  have hnames : sampleGit.names "b".toList = .ok ["b".toList] := by decide +kernel
  have hsteps := steps_sample "b" hnames (by decide) (by decide +kernel)
  have hids : (sampleWritten "b").repository.TellsApart :=
    Git.Repository.tellsApart_of_nodup (by decide +kernel)
  exact ⟨agrees_sample, hsteps, hids, records_of_steps agrees_sample hsteps hids "second".toList⟩

/-- **Where a file was deleted a directory may stand**, if a file was written below it since. Then the
path is neither found nor missing. -/
theorem refused_of_nested : sampleGit.Agrees sampleWorktree ∧
    Steps sampleGit [⟨["a".toList], none⟩, ⟨["a".toList, "b".toList], some "two".toList⟩] sampleWorktree
      (sampleWritten "a/b") ∧
    sampleWorktree.headTree.lookup "a".toList ≠ none ∧
    (∃ id, (commit "second".toList none (sampleWritten "a/b")).result = .ok id) ∧
    (sampleGit.fetch "a".toList none (commit "second".toList none (sampleWritten "a/b")).state).result =
      .error (.store ⟨"'a' is not a regular file.".toList, some "a".toList⟩) := by
  have hbelow : sampleGit.names "a/b".toList = .ok ["a".toList, "b".toList] := by decide +kernel
  have hsteps := steps_sample "a/b" hbelow (by decide) (by decide +kernel)
  have hprepared := prepared_of_steps agrees_sample hsteps
  have hhead := hprepared.head.trans head?_sample
  have hstaged : (sampleWritten "a/b").current.hasStaged = true := by
    rw [← Bool.not_eq_false, hasStaged_eq_false_iff hprepared hhead (List.nodup_singleton _)]
    intro hsame
    have hmissing : (sampleWritten "a/b").repository.index.lookup "a".toList = none := by
      decide +kernel
    exact absurd ((hsame "a".toList).symm.trans hmissing) nofun
  obtain ⟨hresult, hstate⟩ := commit_of_staged hstaged "second".toList
  have hnames : sampleGit.names "a".toList = .ok ["a".toList] := by decide +kernel
  have hlook : (sampleWritten "a/b").disk.look (.ofPath (sampleGit.files.root ++ ["a".toList])) =
      .ok (some .directory) := by decide +kernel
  have hplain : (sampleGit.files.root ++ ["a".toList]).IsPlain :=
    (isNormal_of_names agrees_sample.sound.root hnames).isPlain
  have hway : SameWay (sampleGit.files.root ++ ["a".toList]) (sampleWritten "a/b").disk
      (((sampleWritten "a/b").current.recorded "second".toList).writeBack (sampleWritten "a/b").disk) :=
    sameWay_recorded hprepared (by decide)
  refine ⟨agrees_sample, hsteps, ?_, ⟨_, hresult⟩, ?_⟩
  · rw [headTree_of_head? head?_sample]
    exact nofun
  · rw [hstate]
    show (sampleGit.files.fetch "a".toList _).result = _
    rw [LocalFiles.fetch, ofExcept_bind (resolve_of_names hnames),
      LocalFiles.look_bind ((hway.look hplain).symm.trans hlook)]
    rfl

end GitWorktree

end Emend
