import Emend.Proofs.Disk.Places

/-!
# Trees

On the disk of a machine every entry is held by a directory, and every operation keeps it so. Then an
entry tells all about its place: a file can be read exactly if its entry is a file and its location is
short. And of the directories on a way those that are missing are made until something is in the way, so
what is made below two disks can be compared place by place.
-/

namespace Emend

theorem Path.IsPlain.of_prefix {p q : Path} (h : p.IsPlain) (hq : q <+: p) : q.IsPlain :=
  fun n hn => h n (hq.subset hn)

namespace Disk

variable {d d₁ d₂ : Disk} {place p q : Path} {bs : Bytes}

/-- Every entry is held by a directory. -/
def IsTree (d : Disk) : Prop := ∀ p, p ≠ [] → d.get? p ≠ none → d.get? p.dropLast = some .directory

theorem isTree_iff : d.IsTree ↔
    ∀ e ∈ d.entries, e.1 ≠ [] → d.get? e.1.dropLast = some .directory := by
  have hthere : ∀ p, p ≠ [] → (d.get? p ≠ none ↔ ∃ e ∈ d.entries, e.1 = p) := by
    intro p hp
    rw [get?, if_neg (by rwa [List.isEmpty_iff]), Ne, List.lookup_eq_none_iff]
    push Not
    simp only [bne_iff_ne, ne_eq, not_not]
    exact exists_congr fun e => and_congr_right fun _ => eq_comm
  constructor
  · exact fun h e he hne => h e.1 hne ((hthere e.1 hne).mpr ⟨e, he, rfl⟩)
  · intro h p hp hsome
    obtain ⟨e, he, rfl⟩ := (hthere p hp).mp hsome
    exact h e he hp

instance (d : Disk) : Decidable d.IsTree := decidable_of_iff _ isTree_iff.symm

/-! ## Ways -/

theorem next_of_isPlain {start : Path} {n : Text} (hn : Path.isUp n = false) :
    start.next n = start ++ [n] := by
  rw [Path.next, if_neg (by rw [hn]; exact Bool.false_ne_true)]

/-- A walk along a plain path passes through directories by names that are short enough. -/
theorem walk_eq_ok_iff (start : Path) {ns : Path} (hns : Path.IsPlain ns) :
    d.walk start ns = .ok (start ++ ns) ↔ (∀ n ∈ ns, (Utf8.encode n).length ≤ maxName) ∧
      ∀ q, q <+: ns → q ≠ ns → d.get? (start ++ q) = some .directory := by
  induction ns generalizing start with
  | nil =>
      rw [List.append_nil]
      refine iff_of_true rfl ⟨fun n hn => absurd hn List.not_mem_nil, fun q hq hne => ?_⟩
      exact absurd (List.prefix_nil.mp hq) hne
  | cons n ns ih =>
      have hrest := @ih (start ++ [n]) fun m hm => hns m (List.mem_cons_of_mem n hm)
      rw [List.append_assoc, List.singleton_append] at hrest
      rw [walk_cons_eq_ok, next_of_isPlain (hns n List.mem_cons_self), hrest]
      constructor
      · rintro ⟨hdirectory, hshort, hnames, hway⟩
        refine ⟨fun m hm => ?_, fun q hq hne => ?_⟩
        · rcases List.mem_cons.mp hm with rfl | hm
          · exact hshort
          · exact hnames m hm
        · rcases List.prefix_cons_iff.mp hq with rfl | ⟨q', rfl, hq'⟩
          · rwa [List.append_nil]
          · have := hway q' hq' fun h => hne (congrArg (n :: ·) h)
            rwa [List.append_assoc, List.singleton_append] at this
      · rintro ⟨hnames, hway⟩
        refine ⟨?_, hnames n List.mem_cons_self, fun m hm => hnames m (List.mem_cons_of_mem n hm),
          fun q hq hne => ?_⟩
        · have := hway [] List.nil_prefix (List.cons_ne_nil n ns).symm
          rwa [List.append_nil] at this
        · rw [List.append_assoc, List.singleton_append]
          exact hway (n :: q) (List.cons_prefix_cons.mpr ⟨rfl, hq⟩) fun h => hne (List.cons.inj h).2

/-- A place that is short enough is found through directories. -/
theorem find_of_way (hplace : place.IsPlain) (hshort : (Location.ofPath place).IsShort)
    (hway : ∀ q, q <+: place → q ≠ place → d.get? q = some .directory) :
    d.find (.ofPath place) = .ok (place, d.get? place) :=
  find_eq_ok.mpr ⟨hshort.whole, (walk_eq_ok_iff [] hplace).mpr ⟨hshort.names, hway⟩, rfl⟩

/-- A walk along a plain path ends at the first place that is no directory, or from which the next name
is too long. -/
theorem exists_of_walk_error {start ns : Path} {e : OsFault} (hns : Path.IsPlain ns)
    (h : d.walk start ns = .error e) :
    ∃ q n rest, ns = q ++ n :: rest ∧ d.walk start q = .ok (start ++ q) ∧
      ((e = .noEntry ∧ d.get? (start ++ q) = none) ∨
        (e = .notDirectory ∧ ∃ bs, d.get? (start ++ q) = some (.file bs)) ∨
        (e = .nameTooLong ∧ d.get? (start ++ q) = some .directory ∧
          maxName < (Utf8.encode n).length)) := by
  induction ns generalizing start with
  | nil => cases h
  | cons n ns ih =>
      have hstart : d.walk start [] = .ok (start ++ []) := congrArg Except.ok (List.append_nil start).symm
      rw [walk] at h
      split at h
      · rename_i hnone
        cases h
        exact ⟨[], n, ns, rfl, hstart, .inl ⟨rfl, by rwa [List.append_nil]⟩⟩
      · rename_i bs hfile
        cases h
        exact ⟨[], n, ns, rfl, hstart, .inr (.inl ⟨rfl, bs, by rwa [List.append_nil]⟩)⟩
      · rename_i hdirectory
        split at h
        · rename_i hlong
          cases h
          exact ⟨[], n, ns, rfl, hstart, .inr (.inr ⟨rfl, by rwa [List.append_nil], hlong⟩)⟩
        · rename_i hshort
          have hup := hns n List.mem_cons_self
          rw [if_neg (by rw [hup]; exact Bool.false_ne_true)] at h
          obtain ⟨q, m, rest, rfl, hwalk, hend⟩ := ih (fun m hm => hns m (List.mem_cons_of_mem n hm)) h
          rw [List.append_assoc, List.singleton_append] at hwalk hend
          refine ⟨n :: q, m, rest, rfl, walk_cons_eq_ok.mpr ⟨hdirectory, by omega, ?_⟩, hend⟩
          rwa [next_of_isPlain hup]

/-! ## What is in the way -/

/-- Nothing is in the way to the path: its names are short enough, and no file stands there or before. -/
structure IsOpen (d : Disk) (p : Path) : Prop where
  names : ∀ n ∈ p, (Utf8.encode n).length ≤ maxName
  files : ∀ q, q <+: p → ∀ bs, d.get? q ≠ some (.file bs)

theorem IsOpen.of_prefix (h : d.IsOpen p) (hq : q <+: p) : d.IsOpen q :=
  ⟨fun n hn => h.names n (hq.subset hn), fun q' hq' => h.files q' (hq'.trans hq)⟩

/-- What can be found, if it is no file, has nothing in its way. -/
theorem isOpen_of_find (hplace : place.IsPlain) {e : Option Entry}
    (h : d.find (.ofPath place) = .ok (p, e)) (he : ∀ bs, e ≠ some (.file bs)) : d.IsOpen place := by
  obtain ⟨-, hwalk, hget⟩ := find_eq_ok.mp h
  obtain rfl : p = place := walk_of_isPlain hplace hwalk
  obtain ⟨hnames, hway⟩ := (walk_eq_ok_iff [] hplace).mp hwalk
  refine ⟨hnames, fun q hq bs hfile => ?_⟩
  by_cases hqp : q = p
  · subst hqp
    exact he bs (hget.symm.trans hfile)
  · cases (hway q hq hqp).symm.trans hfile

/-! ## Making directories -/

theorem isDirectory_of_find (hplace : place.IsPlain)
    (h : d.find (.ofPath place) = .ok (p, some .directory)) (hq : q <+: place) :
    d.get? q = some .directory := by
  obtain ⟨-, hwalk, hget⟩ := find_eq_ok.mp h
  obtain rfl : p = place := walk_of_isPlain hplace hwalk
  by_cases hqp : q = p
  · rwa [hqp]
  · exact ((walk_eq_ok_iff [] hplace).mp hwalk).2 q hq hqp

/-- Where a walk ends early, whatever has nothing in its way is there if nothing is missing. -/
theorem isDirectory_of_walk_error (hplace : place.IsPlain) {e : OsFault}
    (h : d.walk [] place = .error e) (he : e ≠ .noEntry) (hq : q <+: place) (hopen : d.IsOpen q) :
    d.get? q = some .directory := by
  obtain ⟨r, n, rest, rfl, hwalk, hend⟩ := exists_of_walk_error hplace h
  rw [List.nil_append] at hend
  have hr := List.prefix_append r (n :: rest)
  by_cases hqr : q <+: r
  · by_cases hsame : q = r
    · subst hsame
      rcases hend with ⟨rfl, -⟩ | ⟨-, bs, hfile⟩ | ⟨-, hdirectory, -⟩
      · exact absurd rfl he
      · exact absurd hfile (hopen.files q List.prefix_rfl bs)
      · exact hdirectory
    · exact ((walk_eq_ok_iff [] (hplace.of_prefix hr)).mp hwalk).2 q hqr hsame
  · -- then `q` goes on beyond the end of the walk
    obtain ⟨t, rfl⟩ := (List.prefix_or_prefix_of_prefix hq hr).resolve_left hqr
    rcases hend with ⟨rfl, -⟩ | ⟨-, bs, hfile⟩ | ⟨-, -, hlong⟩
    · exact absurd rfl he
    · exact absurd hfile (hopen.files r (List.prefix_append r t) bs)
    · rcases List.prefix_cons_iff.mp ((List.prefix_append_right_inj r).mp hq) with rfl | ⟨t', rfl, -⟩
      · exact absurd (by rw [List.append_nil]) hqr
      · have hshort := hopen.names n (List.mem_append_right r List.mem_cons_self)
        omega

/-- If a directory could not be made and the one above is not what is missing, then whatever has nothing
in its way is there. -/
theorem isDirectory_of_ensureDir_error (hplace : place.IsPlain) {e : OsError}
    (hwhole : (Utf8.encode (Location.ofPath place).shown).length ≤ maxPath)
    (h : (d.ensureDir (.ofPath place)).1 = .error e) (he : e.fault ≠ .noEntry) (hq : q <+: place)
    (hopen : d.IsOpen q) : d.get? q = some .directory := by
  rw [ensureDir, makeDir] at h
  cases hfind : d.find (.ofPath place) with
  | error f =>
      rw [hfind] at h
      cases h
      refine isDirectory_of_walk_error hplace ?_ he hq hopen
      rw [find, if_neg (by omega)] at hfind
      show d.walk (Location.ofPath place).start (Location.ofPath place).names = _
      cases hwalk : d.walk (Location.ofPath place).start (Location.ofPath place).names with
      | error f' =>
          rw [hwalk] at hfind
          cases hfind
          rfl
      | ok p =>
          rw [hwalk] at hfind
          cases hfind
  | ok found =>
      obtain ⟨p, _ | bs | _⟩ := found
      · rw [hfind] at h
        cases h
      · obtain ⟨-, hwalk, hget⟩ := find_eq_ok.mp hfind
        obtain rfl : p = place := walk_of_isPlain hplace hwalk
        by_cases hqp : q = p
        · exact absurd (hqp ▸ hget) (hopen.files q List.prefix_rfl bs)
        · exact ((walk_eq_ok_iff [] hplace).mp hwalk).2 q hq hqp
      · exact isDirectory_of_find hplace hfind hq

/-- A directory that was made is there with all that hold it. -/
theorem isDirectory_of_ensureDir_ok (hplace : place.IsPlain)
    (h : (d.ensureDir (.ofPath place)).1 = .ok ()) (hq : q <+: place) :
    (d.ensureDir (.ofPath place)).2.get? q = some .directory := by
  rw [ensureDir, makeDir] at h ⊢
  cases hfind : d.find (.ofPath place) with
  | error f =>
      rw [hfind] at h
      cases h
  | ok found =>
      obtain ⟨p, _ | bs | _⟩ := found
      · obtain ⟨-, hwalk, hget⟩ := find_eq_ok.mp hfind
        obtain rfl : p = place := walk_of_isPlain hplace hwalk
        show (d.put p .directory).get? q = some .directory
        by_cases hqp : q = p
        · rw [hqp]
          exact get?_put_self d _ (ne_nil_of_get?_eq_none hget)
        · rw [get?_put_of_ne d _ hqp]
          exact ((walk_eq_ok_iff [] hplace).mp hwalk).2 q hq hqp
      · rw [hfind] at h
        cases h
      · dsimp only
        exact isDirectory_of_find hplace hfind hq

theorem ensureDir_of_error {l : Location} {e : OsError} (h : (d.ensureDir l).1 = .error e) :
    (d.ensureDir l).2 = d := by
  rw [ensureDir] at h ⊢
  split at h
  · cases h
  · split <;> rfl

/-- A directory can be made if those that hold it are there and nothing is in the way. -/
theorem ensureDir_of_isOpen (hplace : place.IsPlain)
    (hwhole : (Utf8.encode (Location.ofPath place).shown).length ≤ maxPath) (hopen : d.IsOpen place)
    (hway : ∀ q, q <+: place → q ≠ place → d.get? q = some .directory) :
    (d.ensureDir (.ofPath place)).1 = .ok () := by
  have hfind := find_of_way hplace ⟨hwhole, hopen.names⟩ hway
  rw [ensureDir, makeDir, hfind]
  cases hget : d.get? place with
  | none => rfl
  | some e =>
      cases e with
      | file bs => exact absurd hget (hopen.files place List.prefix_rfl bs)
      | directory => rfl

/-- Making directories takes nothing out of the way and puts nothing there. -/
theorem Grows.isOpen_iff {way : Path} (h : d.Grows way d₁) : d₁.IsOpen p ↔ d.IsOpen p := by
  have hfiles : ∀ q bs, d₁.get? q = some (.file bs) ↔ d.get? q = some (.file bs) := by
    intro q bs
    rcases h q with hsame | ⟨hnone, hmade, -⟩
    · rw [hsame]
    · rw [hnone, hmade]
      exact iff_of_false nofun nofun
  constructor
  · exact fun ho => ⟨ho.names, fun q hq bs hfile => ho.files q hq bs ((hfiles q bs).mpr hfile)⟩
  · exact fun ho => ⟨ho.names, fun q hq bs hfile => ho.files q hq bs ((hfiles q bs).mp hfile)⟩

theorem prefix_dropLast (hq : q <+: p) (hne : q ≠ p) : q <+: p.dropLast := by
  obtain ⟨t, rfl⟩ := hq
  have ht : t ≠ [] := fun h => hne (by rw [h, List.append_nil])
  rw [List.dropLast_append_of_ne_nil ht]
  exact List.prefix_append q t.dropLast

/-- A directory is tried again once those above it have been made. -/
theorem ensureDir_opens (hplace : place.IsPlain)
    (hwhole : (Utf8.encode (Location.ofPath place).shown).length ≤ maxPath)
    (hgrows : d.Grows place.dropLast d₁)
    (habove : ∀ q, q <+: place.dropLast → d.IsOpen q → d₁.get? q = some .directory) :
    (d.IsOpen place → (d₁.ensureDir (.ofPath place)).1 = .ok ()) ∧
      ∀ q, q <+: place → d.IsOpen q → (d₁.ensureDir (.ofPath place)).2.get? q = some .directory := by
  have hmakes : d.IsOpen place → (d₁.ensureDir (.ofPath place)).1 = .ok () := fun hopen =>
    ensureDir_of_isOpen hplace hwhole (hgrows.isOpen_iff.mpr hopen) fun q hq hne =>
      habove q (prefix_dropLast hq hne) (hopen.of_prefix hq)
  refine ⟨hmakes, fun q hq hopen => ?_⟩
  by_cases hqp : q = place
  · subst hqp
    exact isDirectory_of_ensureDir_ok hplace (hmakes hopen) hq
  · exact (grows_ensureDir hplace d₁).hasDirectories q (habove q (prefix_dropLast hq hqp) hopen)

/-- Whatever has nothing in its way is there in the end, and unless something is in the way to the last
of them, all directories could be made. -/
theorem makeDirsUpTo_opens (above : Nat) (hplace : place.IsPlain) (habove : place.length ≤ above)
    (hwhole : (Utf8.encode (Location.ofPath place).shown).length ≤ maxPath) (d : Disk) :
    (d.IsOpen place → (d.makeDirsUpTo (.ofPath place) above).1 = .ok ()) ∧
      ∀ q, q <+: place → d.IsOpen q →
        (d.makeDirsUpTo (.ofPath place) above).2.get? q = some .directory := by
  -- on the directories above, as in the function
  induction above generalizing place d with
  | zero =>
      obtain rfl : place = [] := List.length_eq_zero_iff.mp (by omega)
      have hroot : (d.ensureDir (.ofPath [])).1 = .ok () := rfl
      exact ⟨fun _ => hroot, fun q hq _ => isDirectory_of_ensureDir_ok hplace hroot hq⟩
  | succ above ih =>
      rw [makeDirsUpTo]
      cases hensure : d.ensureDir (.ofPath place) with
      | mk made d' =>
          cases made with
          | ok =>
              refine ⟨fun _ => rfl, fun q hq _ => ?_⟩
              have hmade := isDirectory_of_ensureDir_ok hplace (congrArg Prod.fst hensure) hq
              rwa [hensure] at hmade
          | error e =>
              have hstays := ensureDir_of_error (congrArg Prod.fst hensure)
              rw [hensure] at hstays
              obtain rfl : d' = d := hstays
              dsimp only
              split
              · have hne : place ≠ [] := by
                  rintro rfl
                  have hroot : (d'.ensureDir (.ofPath [])).1 = .ok () := rfl
                  cases hroot.symm.trans (congrArg Prod.fst hensure)
                have hlength : place.dropLast.length ≤ above := by
                  rw [List.length_dropLast]
                  omega
                obtain ⟨hmade, hopened⟩ := ih hplace.dropLast hlength
                  ((length_shown_parent_le (.ofPath place)).trans hwhole) d'
                have hgrows := grows_makeDirsUpTo above hplace.dropLast d'
                have hparent : (Location.ofPath place).parent = .ofPath place.dropLast := rfl
                rw [hparent]
                generalize d'.makeDirsUpTo (.ofPath place.dropLast) above = made at hmade hopened hgrows
                obtain ⟨_ | _, d₁⟩ := made
                · refine ⟨fun hopen => ?_, fun q hq hopen => ?_⟩
                  · cases hmade (hopen.of_prefix (List.dropLast_prefix place))
                  · by_cases hqp : q = place
                    · subst hqp
                      cases hmade (hopen.of_prefix (List.dropLast_prefix q))
                    · exact hopened q (prefix_dropLast hq hqp) hopen
                · exact ensureDir_opens hplace hwhole hgrows hopened
              · rename_i hother
                have hdirs := fun q => isDirectory_of_ensureDir_error (q := q) hplace hwhole
                  (congrArg Prod.fst hensure) hother
                refine ⟨fun hopen => ?_, hdirs⟩
                have hmakes := ensureDir_of_isOpen hplace hwhole hopen fun q hq _ =>
                  hdirs q hq (hopen.of_prefix hq)
                cases hmakes.symm.trans (congrArg Prod.fst hensure)

/-- Nothing is made on the way to a location that is too long. -/
theorem makeDirs_of_too_long {l : Location} (hwhole : maxPath < (Utf8.encode l.shown).length)
    (d : Disk) : (d.makeDirs l).2 = d := by
  have hfind : d.find l = .error .nameTooLong := by rw [find, if_pos hwhole]
  have hensure : d.ensureDir l = (.error ⟨.nameTooLong, l.shown⟩, d) := by
    rw [ensureDir, makeDir, hfind]
  rw [makeDirs]
  cases l.names.length with
  | zero => rw [makeDirsUpTo, hensure]
  | succ above =>
      rw [makeDirsUpTo, hensure]
      rfl

/-- Only what has nothing in its way is made. -/
theorem isOpen_of_made (hplace : place.IsPlain) (d : Disk) (hnone : d.get? q = none)
    (hmade : (d.makeDirs (.ofPath place)).2.get? q = some .directory) : d.IsOpen q := by
  let R : Disk → Disk → Prop := fun d d₁ =>
    d.Grows place d₁ ∧ ∀ q, d.get? q = none → d₁.get? q = some .directory → d.IsOpen q
  have htrans : IsTrans Disk R := by
    refine ⟨fun d d₁ d₂ h h' => ⟨h.1.trans h'.1, fun q hnone hmade => ?_⟩⟩
    rcases h.1 q with hsame | ⟨-, hmade₁, -⟩
    · exact h.1.isOpen_iff.mp (h'.2 q (hsame.trans hnone) hmade)
    · exact h.2 q hnone hmade₁
  have hstep : ∀ r, r <+: place → ∀ d : Disk, R d (d.ensureDir (.ofPath r)).2 := by
    intro r hr d
    refine ⟨(grows_ensureDir (hplace.of_prefix hr) d).mono hr, fun q hnone hmade => ?_⟩
    rcases ensureDir_cases d (.ofPath r) with hsame | ⟨p, hfind, hput⟩
    · rw [hsame, hnone] at hmade
      cases hmade
    · obtain ⟨rfl, -⟩ := find_of_isPlain (hplace.of_prefix hr) hfind
      by_cases hqp : q = p
      · rw [hqp]
        exact isOpen_of_find (hplace.of_prefix hr) hfind fun _ => nofun
      · rw [hput, get?_put_of_ne d _ hqp, hnone] at hmade
        cases hmade
  exact (makeDirsUpTo_rel_ofPath hstep _ d).2 q hnone hmade

/-- **The directories that are made**: those on the way that have nothing in theirs. -/
theorem makeDirs_made_iff (hplace : place.IsPlain) (d : Disk) (hnone : d.get? q = none) :
    (d.makeDirs (.ofPath place)).2.get? q = some .directory ↔
      q <+: place ∧ (Utf8.encode (Location.ofPath place).shown).length ≤ maxPath ∧ d.IsOpen q := by
  constructor
  · intro hmade
    refine ⟨?_, ?_, isOpen_of_made hplace d hnone hmade⟩
    · rcases grows_makeDirs hplace d q with hsame | ⟨-, -, hway⟩
      · cases (hsame.trans hnone).symm.trans hmade
      · exact hway
    · by_contra hlong
      rw [makeDirs_of_too_long (Nat.lt_of_not_le hlong), hnone] at hmade
      cases hmade
  · rintro ⟨hq, hwhole, hopen⟩
    exact (makeDirsUpTo_opens _ hplace (Nat.le_refl _) hwhole d).2 q hq hopen

/-! ## What a write needs -/

/-- The place can be given a file: its location is short, no file is on the way, and no directory is
there. -/
structure Takes (d : Disk) (p : Path) : Prop where
  short : (Location.ofPath p).IsShort
  way : ∀ q, q <+: p → q ≠ p → ∀ bs, d.get? q ≠ some (.file bs)
  place : d.get? p ≠ some .directory

theorem Takes.ne_nil (h : d.Takes p) : p ≠ [] := by
  rintro rfl
  exact h.place rfl

/-- What holds an entry of a tree, and all that holds that, are directories. -/
theorem IsTree.isDirectory (h : d.IsTree) (hp : d.get? p ≠ none) (hq : q <+: p) (hne : q ≠ p) :
    d.get? q = some .directory := by
  induction p using List.reverseRecOn with
  | nil => exact absurd (List.prefix_nil.mp hq) hne
  | append_singleton p n ih =>
      have hparent := h (p ++ [n]) (List.append_ne_nil_of_right_ne_nil p (List.cons_ne_nil n [])) hp
      have hprefix := prefix_dropLast hq hne
      rw [List.dropLast_concat] at hparent hprefix
      by_cases hqp : q = p
      · rwa [hqp]
      · exact ih (by rw [hparent]; exact nofun) hprefix hqp

/-- The files of a tree. -/
theorem IsTree.fileAt_iff (h : d.IsTree) (hplace : place.IsPlain) :
    d.fileAt place = some bs ↔ (Location.ofPath place).IsShort ∧ d.get? place = some (.file bs) := by
  constructor
  · exact fun hfile => ⟨isShort_of_fileAt hfile, get?_of_fileAt hplace hfile⟩
  · rintro ⟨hshort, hget⟩
    have hfind := find_of_way hplace hshort fun q hq hne =>
      h.isDirectory (by rw [hget]; exact nofun) hq hne
    exact fileAt_of_find_file (hget ▸ hfind)

theorem IsTree.put (h : d.IsTree) {e : Option Entry} (hplace : place.IsPlain)
    (hfind : d.find (.ofPath place) = .ok (p, e)) (he : e ≠ some .directory) (x : Entry) :
    (d.put p x).IsTree := by
  obtain ⟨-, hwalk, -⟩ := find_eq_ok.mp hfind
  obtain ⟨rfl, hget⟩ := find_of_isPlain hplace hfind
  have hne : p ≠ [] := by
    rintro rfl
    exact he hget.symm
  have hdirectory : ∀ q, d.get? q = some .directory → (d.put p x).get? q = some .directory := by
    intro q hq
    rw [get?_put_of_ne d x (by rintro rfl; exact he (hget.symm.trans hq)), hq]
  intro q hq hthere
  by_cases hqp : q = p
  · subst hqp
    have hlast : q.dropLast ≠ q := fun hsame => by
      have hlength := congrArg List.length hsame
      rw [List.length_dropLast] at hlength
      have := List.length_pos_iff.mpr hne
      omega
    exact hdirectory _ (((walk_eq_ok_iff [] hplace).mp hwalk).2 _ (List.dropLast_prefix q)
      hlast)
  · rw [get?_put_of_ne d x hqp] at hthere
    exact hdirectory _ (h q hq hthere)

theorem IsTree.erase (h : d.IsTree) (hfile : d.get? p = some (.file bs)) : (d.erase p).IsTree := by
  have hne := ne_nil_of_get?_eq_file hfile
  intro q hq hthere
  have hqp : q ≠ p := by
    rintro rfl
    exact hthere (get?_erase_self d hne)
  rw [get?_erase_of_ne d hqp] at hthere
  have hparent := h q hq hthere
  rw [get?_erase_of_ne d (by rintro hsame; rw [hsame, hfile] at hparent; cases hparent), hparent]

theorem IsTree.makeDirs (h : d.IsTree) (hplace : place.IsPlain) :
    (d.makeDirs (.ofPath place)).2.IsTree := by
  let R : Disk → Disk → Prop := fun d d₁ => d.IsTree → d₁.IsTree
  have htrans : IsTrans Disk R := ⟨fun _ _ _ h h' htree => h' (h htree)⟩
  have hstep : ∀ r, r <+: place → ∀ d : Disk, R d (d.ensureDir (.ofPath r)).2 := by
    intro r hr d htree
    have hplain := hplace.of_prefix hr
    rcases ensureDir_cases d (.ofPath r) with hsame | ⟨p, hfind, hput⟩
    · rwa [hsame]
    · rw [hput]
      exact htree.put hplain hfind nofun .directory
  exact makeDirsUpTo_rel_ofPath hstep _ d h

/-! ## Two disks -/

/-- The disks are the same at the places `Z`, but that on the way to a place the first may have
directories where the second has nothing. -/
def Near (Z : Path → Prop) (way : Path) (d d₁ : Disk) : Prop :=
  ∀ p, Z p → d.get? p = d₁.get? p ∨ p <+: way ∧ d.get? p = some .directory ∧ d₁.get? p = none

section

variable {Z : Path → Prop} {way : Path} {d' d₁' : Disk}

/-- The same files are at the places. -/
theorem Near.file_iff (h : Near Z way d d₁) (hp : Z p) :
    d.get? p = some (.file bs) ↔ d₁.get? p = some (.file bs) := by
  rcases h p hp with hsame | ⟨-, hmade, hnone⟩
  · rw [hsame]
  · rw [hmade, hnone]
    exact iff_of_false nofun nofun

theorem Near.way_iff (h : Near Z way d d₁) (hdown : ∀ p q, Z p → q <+: p → Z q) (hp : Z p)
    (hq : q <+: p) : d.get? q = some (.file bs) ↔ d₁.get? q = some (.file bs) :=
  h.file_iff (hdown p q hp hq)

theorem Near.fileAt (h : Near Z way d d₁) (hp : Z place) (hplace : place.IsPlain) (htree : d.IsTree)
    (htree₁ : d₁.IsTree) : d.fileAt place = d₁.fileAt place := by
  refine Option.ext fun bs => ?_
  rw [htree.fileAt_iff hplace, htree₁.fileAt_iff hplace, h.file_iff hp]

theorem Near.isOpen_iff (h : Near Z way d d₁) (hdown : ∀ p q, Z p → q <+: p → Z q) (hp : Z p) :
    d.IsOpen p ↔ d₁.IsOpen p := by
  constructor
  · exact fun ho => ⟨ho.names, fun q hq bs hfile => ho.files q hq bs ((h.way_iff hdown hp hq).mpr hfile)⟩
  · exact fun ho => ⟨ho.names, fun q hq bs hfile => ho.files q hq bs ((h.way_iff hdown hp hq).mp hfile)⟩

/-- Directories are made at the same places. -/
theorem Near.makeDirs (h : Near Z way d d₁) (hdown : ∀ p q, Z p → q <+: p → Z q)
    (hplace : place.IsPlain) :
    Near Z way (d.makeDirs (.ofPath place)).2 (d₁.makeDirs (.ofPath place)).2 := by
  intro p hp
  rcases h p hp with hsame | ⟨hway, hdirectory, hnone₁⟩
  · left
    cases hget : d.get? p with
    | none =>
        have hget₁ : d₁.get? p = none := hsame.symm.trans hget
        have hiff : (d.makeDirs (.ofPath place)).2.get? p = some .directory ↔
            (d₁.makeDirs (.ofPath place)).2.get? p = some .directory := by
          rw [makeDirs_made_iff hplace d hget, makeDirs_made_iff hplace d₁ hget₁,
            h.isOpen_iff hdown hp]
        rcases grows_makeDirs hplace d p with hleft | ⟨-, hmade, -⟩
        · rcases grows_makeDirs hplace d₁ p with hleft₁ | ⟨-, hmade₁, -⟩
          · rw [hleft, hleft₁, hsame]
          · rw [hmade₁, hiff.mpr hmade₁]
        · rw [hmade, hiff.mp hmade]
    | some e =>
        have hstays : ∀ d : Disk, d.get? p = some e →
            (d.makeDirs (.ofPath place)).2.get? p = some e := by
          intro d hget
          rcases grows_makeDirs hplace d p with hleft | ⟨hnone, -, -⟩
          · exact hleft.trans hget
          · cases hget.symm.trans hnone
        rw [hstays d hget, hstays d₁ (hsame.symm.trans hget)]
  · have hstays := (grows_makeDirs hplace d).hasDirectories p hdirectory
    rcases grows_makeDirs hplace d₁ p with hleft₁ | ⟨-, hmade₁, -⟩
    · exact .inr ⟨hway, hstays, hleft₁.trans hnone₁⟩
    · exact .inl (hstays.trans hmade₁.symm)

/-- What is done away from the places does not count. -/
theorem Near.congr (h : Near Z way d d₁) (hd : ∀ p, Z p → d'.get? p = d.get? p)
    (hd₁ : ∀ p, Z p → d₁'.get? p = d₁.get? p) : Near Z way d' d₁' := by
  intro p hp
  rw [hd p hp, hd₁ p hp]
  exact h p hp

/-- A file that is put in the same place of both. -/
theorem Near.put (h : Near Z way d d₁) (hne : p ≠ []) (e : Entry) :
    Near Z way (d.put p e) (d₁.put p e) := by
  intro q hq
  by_cases hqp : q = p
  · subst hqp
    exact .inl ((get?_put_self d e hne).trans (get?_put_self d₁ e hne).symm)
  · rw [get?_put_of_ne d e hqp, get?_put_of_ne d₁ e hqp]
    exact h q hq

/-- A file that is taken from the same place of both. -/
theorem Near.erase (h : Near Z way d d₁) (hne : p ≠ []) : Near Z way (d.erase p) (d₁.erase p) := by
  intro q hq
  by_cases hqp : q = p
  · subst hqp
    exact .inl ((get?_erase_self d hne).trans (get?_erase_self d₁ hne).symm)
  · rw [get?_erase_of_ne d hqp, get?_erase_of_ne d₁ hqp]
    exact h q hq

end

end Disk

end Emend
