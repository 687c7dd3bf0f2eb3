import Emend.Proofs.Act
import Emend.Proofs.Disk.Files
import Emend.Proofs.History.Lines
import Mathlib.Data.List.DropRight
import Mathlib.Data.List.Sort

/-!
# Runs of the history

Entries that are added one after the other, each with a limit of its own, leave a file that holds what
the limits have kept (`kept`). One call adds a line to the lines that are there, reads them all back and,
if there are too many, writes the last ones anew (`append_step`); `Holds` is the invariant that carries
a run of calls (`appendAll_holds`). Where the times of the entries increase, the list of a file's
entries from the newest on is the file backwards (`newestFirst_of_increasing`).
-/

namespace Emend

/-- A field that is read can have this value. -/
def Timestamp.IsAccepted (t : Timestamp) : Prop := ∃ v, Timestamp.check v = .ok t

theorem Timestamp.IsAccepted.isProper {t : Timestamp} (h : t.IsAccepted) : t.IsProper := by
  obtain ⟨v, hv⟩ := h
  exact isProper_of_check hv

theorem Location.checkNames_parent {l : Location} (h : l.checkNames = .ok ()) :
    l.parent.checkNames = .ok () := by
  rw [checkNames] at h ⊢
  split at h
  · cases h
  · rename_i hnone
    refine if_neg fun hany => hnone ?_
    obtain ⟨n, hn, hnull⟩ := List.any_eq_true.mp hany
    exact List.any_eq_true.mpr ⟨n, List.mem_of_mem_dropLast hn, hnull⟩

namespace Disk

/-! ## The working directory -/

theorem cwd_ensureDir (d : Disk) (l : Location) : (d.ensureDir l).2.cwd = d.cwd := by
  rw [ensureDir]
  cases hmake : d.makeDir l with
  | error e =>
      dsimp only
      split <;> rfl
  | ok d₁ =>
      rw [makeDir] at hmake
      split at hmake
      · cases hmake
      · cases hmake
      · cases hmake
        rfl

theorem cwd_makeDirsUpTo (above : Nat) (d : Disk) (l : Location) :
    (d.makeDirsUpTo l above).2.cwd = d.cwd := by
  induction above generalizing d l with
  | zero => exact cwd_ensureDir d l
  | succ above ih =>
      have hfirst := cwd_ensureDir d l
      rw [makeDirsUpTo]
      generalize d.ensureDir l = first at hfirst
      obtain ⟨_ | _, d₁⟩ := first
      · dsimp only
        split
        · have habove := ih d₁ l.parent
          generalize d₁.makeDirsUpTo l.parent above = made at habove
          obtain ⟨_ | _, d₂⟩ := made
          · exact habove.trans hfirst
          · exact (cwd_ensureDir d₂ l).trans (habove.trans hfirst)
        · exact hfirst
      · exact hfirst

theorem cwd_makeDirs (d : Disk) (l : Location) : (d.makeDirs l).2.cwd = d.cwd :=
  cwd_makeDirsUpTo _ d l

end Disk

namespace History

/-! ## What a run keeps -/

/-- The last elements of a list, so many as the limit says; a limit that is not positive keeps all. -/
def lastOf {α : Type} (limit : Int) (xs : List α) : List α :=
  if 0 < limit then xs.rtake limit.toNat else xs

/-- What calls have kept of their entries and of those that were there before. -/
def keptFrom (es : List Entry) (calls : List (Entry × Int)) : List Entry :=
  calls.foldl (fun es call => lastOf call.2 (es ++ [call.1])) es

/-- What calls have kept of their entries. -/
def kept (calls : List (Entry × Int)) : List Entry := keptFrom [] calls

/-- Adds entries one after the other, each with its limit. -/
def appendAll (path : Text) : List (Entry × Int) → Act Host Unit
  | [] => return ()
  | (e, limit) :: calls => do
    let _ ← append path e limit
    appendAll path calls

theorem newest_eq_lastOf (limit : Int) (es : List Entry) : newest limit es = lastOf limit es := by
  rw [newest, lastOf, List.rtake]

theorem sublist_lastOf {α : Type} (limit : Int) (xs : List α) : (lastOf limit xs).Sublist xs := by
  rw [lastOf]
  split
  · exact List.drop_sublist _ _
  · exact List.Sublist.refl xs

/-- What is kept comes from what was there and from the calls, in order. -/
theorem sublist_keptFrom (es : List Entry) (calls : List (Entry × Int)) :
    (keptFrom es calls).Sublist (es ++ calls.map Prod.fst) := by
  induction calls generalizing es with
  | nil => simp [keptFrom]
  | cons call calls ih =>
      have hrest := ih (lastOf call.2 (es ++ [call.1]))
      have hfirst := (sublist_lastOf call.2 (es ++ [call.1])).append_right (calls.map Prod.fst)
      rw [List.append_assoc] at hfirst
      exact hrest.trans hfirst

/-! ## One call -/

/-- The file at the location has the lines of these entries. -/
def Holds (l : Location) (es : List Entry) (d : Disk) : Prop :=
  ∃ p, d.find l = .ok (p, some (.file (Utf8.encode (es.flatMap Entry.line))))

/-- An entry can be added: the directories above the file are there or can be made, and the file has
the lines of these entries, or there is none yet. -/
def Awaits (l : Location) (es : List Entry) (d : Disk) : Prop :=
  ∃ d', d.makeDirs l.parent = (.ok (), d') ∧
    (Holds l es d' ∨ es = [] ∧ ∃ p, d'.find l = .ok (p, none))

theorem Holds.awaits {l : Location} {es : List Entry} {d : Disk} (hne : l.names ≠ [])
    (h : Holds l es d) : Awaits l es d := by
  obtain ⟨p, hfind⟩ := h
  obtain ⟨q, hparent⟩ := Disk.find_parent hne hfind
  exact ⟨d, Disk.makeDirs_of_directory hparent, Or.inl ⟨p, hfind⟩⟩

/-- A file whose lines are read is read. -/
theorem readEntries_of_readLines {l : Location} {h : Host} {p : Path} {bs : Bytes} {lines : List Text}
    {es : List Entry} {s : Supply} (hfind : h.disk.find l = .ok (p, some (.file bs)))
    (hlines : linesOf bs = ⟨lines, none⟩) (hread : readLines l 1 lines h.supply = (.ok es, s)) :
    readEntries l h = ⟨.ok es, { h with supply := s }, []⟩ := by
  have hbytes : Host.examine (·.readFile l) h = ⟨.ok bs, h, []⟩ := by
    rw [Host.examine, Act.reading, Disk.readFile, hfind]
    rfl
  have hentries : Host.supplied (readLines l 1 lines) h = ⟨.ok es, { h with supply := s }, []⟩ := by
    rw [Host.supplied, hread]
  rw [readEntries, Act.bind_of_ok hbytes, hlines, Act.bind_of_ok hentries]
  rfl

/-- **A file with the lines of entries is read as these entries.** -/
theorem readEntries_of_holds {l : Location} {es : List Entry} {h : Host} (hholds : Holds l es h.disk)
    (htimes : ∀ e ∈ es, e.time.IsProper) : readEntries l h = ⟨.ok es, h, []⟩ := by
  obtain ⟨p, hfind⟩ := hholds
  exact readEntries_of_readLines hfind (linesOf_lines es) (readLines_json l 1 htimes h.supply)

/-- The line of one entry more is added at the end. -/
theorem exists_appendFile {l : Location} {es : List Entry} {d : Disk} (e : Entry)
    (h : Holds l es d ∨ es = [] ∧ ∃ p, d.find l = .ok (p, none)) :
    ∃ d', d.appendFile l (Utf8.encode e.line) = .ok d' ∧ Holds l (es ++ [e]) d' ∧ d'.cwd = d.cwd := by
  have hbytes : Utf8.encode ((es ++ [e]).flatMap Entry.line) =
      Utf8.encode (es.flatMap Entry.line) ++ Utf8.encode e.line := by
    simp [Utf8.encode, List.flatMap_append]
  rcases h with ⟨p, hfind⟩ | ⟨rfl, p, hfind⟩
  · refine ⟨d.put p (.file (Utf8.encode (es.flatMap Entry.line) ++ Utf8.encode e.line)), ?_, ⟨p, ?_⟩,
      rfl⟩
    · rw [Disk.appendFile, hfind]
    · rw [hbytes]
      exact Disk.find_put hfind (by simp) _
  · refine ⟨d.put p (.file (Utf8.encode e.line)), ?_, ⟨p, ?_⟩, rfl⟩
    · rw [Disk.appendFile, hfind]
    · rw [hbytes]
      exact Disk.find_put hfind (by simp) _

/-- What a call does once its line is written: it reads the file, and keeps the newest entries. -/
def keep (l : Location) (limit : Int) : Act Host Text := do
  let entries ← readEntries l
  let kept := newest limit entries
  if kept.length < entries.length then do
    Host.alter (·.writeFile l (Utf8.encode (kept.flatMap Entry.line)))
    Act.note { channel := .session,
               text := "history trimmed to ".toList ++ Text.ofNat kept.length ++
                 " entries (dropped ".toList ++ Text.ofNat (entries.length - kept.length) ++ [')'] }
  return l.shown

/-- A call writes its line before it reads the file. -/
theorem append_eq_keep {path : Text} {l : Location} {h : Host} {d d₁ : Disk} {e : Entry}
    (hl : Location.ofText h.disk.cwd path = l) (hnames : l.checkNames = .ok ())
    (hmake : h.disk.makeDirs l.parent = (.ok (), d))
    (happend : d.appendFile l (Utf8.encode e.line) = .ok d₁) (limit : Int) :
    append path e limit h = keep l limit { h with disk := d₁ } := by
  have hplace : Host.place path h = ⟨.ok l, h, []⟩ := by
    rw [Host.place, Act.reading, hl]
  have hdirs : Host.makeDirs l.parent h = ⟨.ok (), { h with disk := d }, []⟩ := by
    rw [Host.makeDirs, hmake]
    rfl
  have hadd : Host.alter (·.appendFile l (Utf8.encode e.line)) { h with disk := d } =
      ⟨.ok (), { h with disk := d₁ }, []⟩ := by
    rw [Host.alter, happend]
  rw [append, Act.bind_of_ok hplace, Act.ofExcept_bind (Location.checkNames_parent hnames),
    Act.bind_of_ok hdirs, Act.ofExcept_bind hnames, Act.bind_of_ok hadd]
  rfl

/-- A file that is read is left as it is, or with the lines of the newest entries. -/
theorem keep_of_entries {l : Location} {h : Host} {p : Path} {bs : Bytes} {es : List Entry} {s : Supply}
    (hfind : h.disk.find l = .ok (p, some (.file bs)))
    (hread : readEntries l h = ⟨.ok es, { h with supply := s }, []⟩) (limit : Int) :
    ∃ d, (keep l limit h).result = .ok l.shown ∧ (keep l limit h).state = ⟨d, s⟩ ∧
      d.cwd = h.disk.cwd ∧ (d = h.disk ∧ lastOf limit es = es ∨ Holds l (lastOf limit es) d) := by
  rw [keep, Act.bind_of_ok hread]
  dsimp only
  rw [newest_eq_lastOf]
  split
  · -- too many entries: the last ones are written anew
    refine ⟨h.disk.put p (.file (Utf8.encode ((lastOf limit es).flatMap Entry.line))), ?_⟩
    have hwrite : Host.alter (·.writeFile l (Utf8.encode ((lastOf limit es).flatMap Entry.line)))
        { h with supply := s } = ⟨.ok (),
          ⟨h.disk.put p (.file (Utf8.encode ((lastOf limit es).flatMap Entry.line))), s⟩, []⟩ := by
      rw [Host.alter, Disk.writeFile, hfind]
    rw [Act.bind_of_ok hwrite]
    exact ⟨rfl, rfl, rfl, Or.inr ⟨p, Disk.find_put hfind nofun _⟩⟩
  · -- the last ones are all of them
    rename_i hall
    exact ⟨h.disk, rfl, rfl, rfl, Or.inl
      ⟨rfl, (sublist_lastOf limit es).eq_of_length_le (Nat.not_lt.mp hall)⟩⟩

/-- **One call** adds its entry and keeps the last ones. -/
theorem append_step {path : Text} {h : Host} {es : List Entry} {e : Entry}
    (hnames : (Location.ofText h.disk.cwd path).checkNames = .ok ())
    (hawaits : Awaits (Location.ofText h.disk.cwd path) es h.disk)
    (htimes : ∀ e' ∈ es ++ [e], e'.time.IsProper) (limit : Int) :
    (append path e limit).Gives h fun _ h' => h'.disk.cwd = h.disk.cwd ∧
      Holds (Location.ofText h.disk.cwd path) (lastOf limit (es ++ [e])) h'.disk := by
  generalize hl : Location.ofText h.disk.cwd path = l at *
  obtain ⟨d, hmake, hfile⟩ := hawaits
  obtain ⟨d₁, happend, hholds, hcwd₁⟩ := exists_appendFile e hfile
  have hcwd : d₁.cwd = h.disk.cwd := by
    rw [hcwd₁, ← Disk.cwd_makeDirs h.disk l.parent, hmake]
  have hread := readEntries_of_holds (h := { h with disk := d₁ }) hholds htimes
  obtain ⟨p, hfind⟩ := hholds
  obtain ⟨d₂, hok, hstate, hcwd₂, hkept⟩ := keep_of_entries hfind hread limit
  rw [Act.Gives, append_eq_keep hl hnames hmake happend, hstate]
  refine ⟨_, hok, hcwd₂.trans hcwd, ?_⟩
  rcases hkept with ⟨rfl, hall⟩ | hkept
  · rw [hall]
    exact ⟨p, hfind⟩
  · exact hkept

/-! ## A run of calls -/

/-- **A run of calls** leaves the lines of what it has kept. -/
theorem appendAll_holds {path : Text} {l : Location} (hnames : l.checkNames = .ok ())
    (hne : l.names ≠ []) {calls : List (Entry × Int)} (hcalls : calls ≠ []) {es : List Entry}
    (htimes : ∀ e ∈ es ++ calls.map Prod.fst, e.time.IsProper) {h : Host}
    (hl : Location.ofText h.disk.cwd path = l) (hawaits : Awaits l es h.disk) :
    (appendAll path calls).Gives h fun _ h' => h'.disk.cwd = h.disk.cwd ∧
      Holds l (keptFrom es calls) h'.disk := by
  -- on the calls: behind each of them the file awaits the next one
  induction calls generalizing es h with
  | nil => exact absurd rfl hcalls
  | cons call calls ih =>
      obtain ⟨e, limit⟩ := call
      subst hl
      have hfirst := append_step (e := e) hnames hawaits
        (fun e' he' => htimes e' (by
          rw [List.map_cons, ← List.singleton_append, ← List.append_assoc]
          exact List.mem_append_left _ he')) limit
      rw [appendAll]
      refine hfirst.bind fun _ h₁ ⟨hcwd, hholds⟩ => ?_
      cases calls with
      | nil => exact Act.gives_pure ⟨hcwd, hholds⟩
      | cons call calls =>
          have hkept : ∀ e' ∈ lastOf limit (es ++ [e]) ++ (call :: calls).map Prod.fst,
              e'.time.IsProper := by
            intro e' he'
            refine htimes e' ?_
            rw [List.map_cons, ← List.singleton_append, ← List.append_assoc]
            rcases List.mem_append.mp he' with he' | he'
            · exact List.mem_append_left _ ((sublist_lastOf limit (es ++ [e])).subset he')
            · exact List.mem_append_right _ he'
          have hrest := ih (List.cons_ne_nil _ _) hkept (by rw [hcwd]) (hholds.awaits hne)
          exact hrest.mono fun _ h' ⟨hcwd', hholds'⟩ => ⟨hcwd'.trans hcwd, hholds'⟩

/-! ## The list from the newest entry on -/

theorem isMixed_eq_true_iff {es : List Entry} :
    isMixed es = true ↔
      (∃ e ∈ es, e.time.offset.isSome) ∧ ∃ e ∈ es, e.time.offset = none := by
  simp [isMixed, List.any_eq_true]

/-- The list is in the order of the times, and has the entries of the file. -/
theorem newestFirst_sorted (es : List Entry) :
    (newestFirst es).Perm es ∧
      (newestFirst es).Pairwise fun a b => b.time.instant ≤ a.time.instant := by
  refine ⟨List.mergeSort_perm es _, ?_⟩
  have hsorted : (newestFirst es).Pairwise fun a b =>
      decide (b.time.instant ≤ a.time.instant) = true := by
    refine List.pairwise_mergeSort (fun a b c hab hbc => ?_) (fun a b => ?_) es
    · rw [decide_eq_true_eq] at hab hbc ⊢
      omega
    · rw [Bool.or_eq_true, decide_eq_true_eq, decide_eq_true_eq]
      omega
  exact hsorted.imp of_decide_eq_true

/-- Entries in the order of their times are listed backwards. -/
theorem newestFirst_of_increasing {es : List Entry}
    (h : es.Pairwise fun a b => a.time.instant < b.time.instant) : newestFirst es = es.reverse := by
  obtain ⟨hperm, hsorted⟩ := newestFirst_sorted es
  have hreverse : es.reverse.Pairwise fun a b => b.time.instant ≤ a.time.instant := by
    rw [List.pairwise_reverse]
    exact h.imp Int.le_of_lt
  -- two entries of one time are one entry, so there is one order only
  refine List.Perm.eq_of_pairwise (fun a b ha hb hab hba => ?_) hsorted hreverse
    (hperm.trans (List.reverse_perm es).symm)
  have hinstants : (es.map (·.time.instant)).Nodup :=
    List.pairwise_map.mpr (h.imp fun hxy => Int.ne_of_lt hxy)
  exact List.inj_on_of_nodup_map hinstants (hperm.subset ha) (List.mem_reverse.mp hb) (by omega)

theorem isMixed_eq_false_iff {es : List Entry} :
    isMixed es = false ↔ ∀ a ∈ es, ∀ b ∈ es, a.time.offset.isSome = b.time.offset.isSome := by
  rw [← Bool.not_eq_true, isMixed_eq_true_iff]
  constructor
  · intro h a ha b hb
    cases hsome : a.time.offset.isSome <;> cases hsome' : b.time.offset.isSome
    · rfl
    · exact absurd ⟨⟨b, hb, hsome'⟩, a, ha, by simpa using hsome⟩ h
    · exact absurd ⟨⟨a, ha, hsome⟩, b, hb, by simpa using hsome'⟩ h
    · rfl
  · rintro h ⟨⟨a, ha, hsome⟩, b, hb, hnone⟩
    have hsame := h a ha b hb
    rw [hsome, hnone] at hsame
    cases hsame

/-- Where a file is there, loading is reading it and putting its entries in order. -/
theorem load_of_file {path : Text} {l : Location} {h : Host} {p : Path} {bs : Bytes}
    (hl : Location.ofText h.disk.cwd path = l) (hnames : l.checkNames = .ok ())
    (hfind : h.disk.find l = .ok (p, some (.file bs))) :
    load path h = (do
      let es ← readEntries l
      if isMixed es then Act.fail .incomparableTimes else return newestFirst es) h := by
  have hplace : Host.place path h = ⟨.ok l, h, []⟩ := by
    rw [Host.place, Act.reading, hl]
  have hthere : Host.isThere l h = ⟨.ok true, h, []⟩ := by
    rw [Host.isThere, hnames]
    dsimp only
    rw [Host.examine, Act.reading, Disk.isThere, Disk.look_of_find hfind]
    rfl
  rw [load, Act.bind_of_ok hplace, Act.bind_of_ok hthere]
  rfl

theorem load_of_holds {path : Text} {h : Host} {es : List Entry}
    (hnames : (Location.ofText h.disk.cwd path).checkNames = .ok ())
    (hholds : Holds (Location.ofText h.disk.cwd path) es h.disk)
    (htimes : ∀ e ∈ es, e.time.IsProper) (hoffsets : ∀ e ∈ es, e.time.offset.isSome) :
    load path h = ⟨.ok (newestFirst es), h, []⟩ := by
  have hmixed : isMixed es = false :=
    isMixed_eq_false_iff.mpr fun a ha b hb => (hoffsets a ha).trans (hoffsets b hb).symm
  have hread := readEntries_of_holds hholds htimes
  obtain ⟨p, hfind⟩ := hholds
  rw [load_of_file rfl hnames hfind, Act.bind_of_ok hread, hmixed]
  rfl

/-- **History runs.** Where no history file is there yet and one can be made, entries with any texts and
changes and any times that a field can have are added by any number of calls with any limits. None of the
calls fails, and behind the last one the file is read, field for field and in the order of the calls, as
the entries that the limits have kept; each call can be taken as the last one. If moreover the times have
offsets and increase strictly from call to call, the list of the entries is what was kept, from the last
one on. -/
theorem appendAll_kept {path : Text} {h : Host} {l : Location}
    (hl : Location.ofText h.disk.cwd path = l) (hnames : l.checkNames = .ok ()) (hne : l.names ≠ [])
    (hnew : ∃ d p, h.disk.makeDirs l.parent = (.ok (), d) ∧ d.find l = .ok (p, none))
    {calls : List (Entry × Int)} (hcalls : calls ≠ [])
    (htimes : ∀ call ∈ calls, call.1.time.IsAccepted) :
    (appendAll path calls).Gives h fun _ h' =>
      (readEntries l h').result = .ok (kept calls) ∧
      ((∀ call ∈ calls, call.1.time.offset.isSome) →
        calls.Pairwise (fun a b => a.1.time.instant < b.1.time.instant) →
          (load path h').result = .ok (kept calls).reverse) := by
  have hproper : ∀ e ∈ [] ++ calls.map Prod.fst, e.time.IsProper := by
    intro e he
    obtain ⟨call, hcall, rfl⟩ := List.mem_map.mp he
    exact (htimes call hcall).isProper
  have hawaits : Awaits l [] h.disk := by
    obtain ⟨d, p, hmake, hfind⟩ := hnew
    exact ⟨d, hmake, Or.inr ⟨rfl, p, hfind⟩⟩
  have hsub : (kept calls).Sublist (calls.map Prod.fst) := sublist_keptFrom [] calls
  refine (appendAll_holds hnames hne hcalls hproper hl hawaits).mono fun _ h' ⟨hcwd, hholds⟩ => ?_
  change Holds l (kept calls) h'.disk at hholds
  have hkept : ∀ e ∈ kept calls, e.time.IsProper := fun e he => hproper e (hsub.subset he)
  refine ⟨by rw [readEntries_of_holds hholds hkept], fun hoffsets hincreasing => ?_⟩
  have hl' : Location.ofText h'.disk.cwd path = l := by rw [hcwd, hl]
  have hsome : ∀ e ∈ kept calls, e.time.offset.isSome := by
    intro e he
    obtain ⟨call, hcall, rfl⟩ := List.mem_map.mp (hsub.subset he)
    exact hoffsets call hcall
  have hsorted : (kept calls).Pairwise fun a b => a.time.instant < b.time.instant :=
    List.Pairwise.sublist hsub (List.pairwise_map.mpr hincreasing)
  subst hl'
  rw [load_of_holds hnames hholds hkept hsome, newestFirst_of_increasing hsorted]

/-- A host with an empty working directory. -/
def sampleHost : Host where
  disk := { entries := [(["w".toList], .directory)], cwd := ["w".toList], home := [] }
  supply := { time := fun _ => ⟨0, none⟩, identifier := fun _ => [] }

/-- Two entries, with line ends in their texts and fractions and offsets in their times. -/
def sampleCalls : List (Entry × Int) :=
  [({ id := "1".toList, time := ⟨1704067200000001, some 19800⟩, repository := "a\nb\r\u2028".toList,
      isSuccessful := true,
      changes := [{ path := "\"\\".toList, operation := .create, status := .success,
                    after := some "\x00\x85".toList }] }, 0),
   ({ id := "2".toList, time := ⟨1704067200000002, some 19800⟩, repository := [], isSuccessful := false,
      changes := [] }, 1)]

/-- Both are added, and the limit of the second call keeps the second one. -/
theorem appendAll_sampleCalls :
    (appendAll "log/h.jsonl".toList sampleCalls).Gives sampleHost fun _ h' =>
      (readEntries (Location.ofText ["w".toList] "log/h.jsonl".toList) h').result =
          .ok (sampleCalls.drop 1 |>.map Prod.fst) ∧
        (load "log/h.jsonl".toList h').result = .ok (sampleCalls.drop 1 |>.map Prod.fst) := by
  have htimes : ∀ call ∈ sampleCalls, call.1.time.IsAccepted := by
    intro call hcall
    rcases List.mem_cons.mp hcall with rfl | hcall
    · exact ⟨.text "2024-01-01T00:00:00.000001+05:30".toList, by decide +kernel⟩
    · rw [List.mem_singleton.mp hcall]
      exact ⟨.text "2024-01-01T00:00:00.000002+05:30".toList, by decide +kernel⟩
  have hkept : kept sampleCalls = (sampleCalls.drop 1).map Prod.fst := by decide +kernel
  have hrun : (appendAll "log/h.jsonl".toList sampleCalls).Gives sampleHost _ :=
    appendAll_kept rfl (by decide +kernel) (by decide +kernel) ⟨_, _, rfl, rfl⟩ (by decide) htimes
  refine hrun.mono fun _ h' ⟨hread, hload⟩ => ⟨hkept ▸ hread, ?_⟩
  rw [hload (by decide) (by decide), hkept]
  rfl

end History

end Emend
