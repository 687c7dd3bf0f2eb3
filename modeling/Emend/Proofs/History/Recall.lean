import Emend.History.Entry
import Emend.Proofs.Batch.Truthful
import Emend.Proofs.Store.RoundTrip

/-!
# What the history recalls of a run

After a run over local files that nobody else uses, the record of a change that was made tells what its
file holds now, and what it held before the run, if the file was fetched. A file that is only created is
not fetched, so its record tells nothing of what stood in its place.

The text before is recalled along the whole run: preparing leaves the disk as it is, so every file is
fetched as it was at first, and committing keeps what a change knows of the text before. The text after
is what the change's own turn leaves, since the later turns are made at other places.
-/

namespace Emend

/-- The change knows the text that its file has on the disk, if it has any instruction but to create it.
Otherwise it knows of none. -/
def Change.Recalls (l : LocalFiles) (d : Disk) (c : Change) : Prop :=
  if c.instructions.all (·.operation = .create) then c.before = none
  else ∃ place, l.resolve c.path = .ok place ∧ d.fileAt place = c.before.map Utf8.encode

/-- The change is that of one file of the instructions, and unless it has failed it recalls the file. -/
structure Change.Stems (l : LocalFiles) (d : Disk) (is : List Instruction) (c : Change) : Prop where
  path : c.path ∈ is.map (·.path)
  instructions : c.instructions = is.filter (·.path = c.path)
  recalls : c.status = .pending ∨ c.status = .success → c.Recalls l d

theorem Change.Recalls.congr {l : LocalFiles} {d : Disk} {c c' : Change} (h : c.Recalls l d)
    (hpath : c'.path = c.path) (hinstructions : c'.instructions = c.instructions)
    (hbefore : c'.before = c.before) : c'.Recalls l d := by
  rw [Recalls] at h ⊢
  rwa [hpath, hinstructions, hbefore]

/-- A change that failed has nothing to recall. -/
theorem Change.Stems.stopped {l : LocalFiles} {d : Disk} {is : List Instruction} {c : Change}
    (h : c.Stems l d is) (e : StoreError) : (c.stopped (.notStored e)).Stems l d is where
  path := h.path
  instructions := h.instructions
  recalls := by
    rintro (hstatus | hstatus)
    · cases hstatus
    · cases hstatus

/-- A pending change that is made goes on recalling its file. -/
theorem Change.Stems.made {l : LocalFiles} {d : Disk} {is : List Instruction} {c : Change}
    (h : c.Stems l d is) (hstatus : c.status = .pending) (token : Option Token) :
    Change.Stems l d is { c with status := .success, token } where
  path := h.path
  instructions := h.instructions
  recalls _ := (h.recalls (.inl hstatus)).congr rfl rfl rfl

namespace Session

open Act

variable {σ : Type} {s : Session σ} {ref : Option Text} {st : σ}

/-! ## Committing -/

/-- A commit stops a change or makes it, and has it otherwise as it is. -/
theorem ensures_commitChange (ref : Option Text) (c : Change) (st : σ) :
    (s.commitChange ref c).Ensures st fun c' _ =>
      (∃ e, c' = c.stopped (.notStored e)) ∨ ∃ token, c' = { c with status := .success, token } := by
  rw [commitChange]
  refine (ensures_trivial _ _).bind fun message _ _ => (ensures_trivial _ _).bind fun answer _ _ => ?_
  cases answer with
  | error e => exact (ensures_trivial _ _).bind fun _ _ _ => ensures_pure (.inl ⟨e, rfl⟩)
  | ok token => exact (ensures_trivial _ _).bind fun _ _ _ => ensures_pure (.inr ⟨token, rfl⟩)

/-- What holds of all changes, however they end, holds of them after a commit. -/
theorem ensures_commitChanges (P : Change → Prop)
    (hstopped : ∀ c e, P c → P (c.stopped (.notStored e)))
    (hmade : ∀ c token, c.status = .pending → P c → P { c with status := .success, token })
    (ref : Option Text) {cs : List Change} (h : ∀ c ∈ cs, P c) (st : σ) :
    (s.commitChanges ref cs).Ensures st fun answer _ =>
      answer.1.map (·.path) = cs.map (·.path) ∧ ∀ c ∈ answer.1, P c := by
  induction cs generalizing st with
  | nil => exact ensures_pure ⟨rfl, h⟩
  | cons c cs ih =>
      have hhead := h c List.mem_cons_self
      have hrest := ih fun c hc => h c (List.mem_cons_of_mem _ hc)
      have hcons : ∀ (c' : Change) (answer : List Change × Option Failure), c'.path = c.path → P c' →
          answer.1.map (·.path) = cs.map (·.path) ∧ (∀ c ∈ answer.1, P c) →
          (c' :: answer.1).map (·.path) = (c :: cs).map (·.path) ∧ ∀ c ∈ c' :: answer.1, P c := by
        rintro c' answer hpath hc' ⟨hpaths, hall⟩
        exact ⟨by rw [List.map_cons, List.map_cons, hpath, hpaths], List.forall_mem_cons.mpr ⟨hc', hall⟩⟩
      rw [commitChanges]
      split
      · rename_i hpending
        refine (gives_outcome _ st).ensures.bind ?_
        rintro r st₁ ⟨hresult, rfl⟩
        cases r with
        | error e => exact ensures_pure ⟨rfl, h⟩
        | ok c' =>
            refine (hrest _).bind fun answer st' hanswer => ensures_pure ?_
            rcases ensures_commitChange ref c st c' hresult.symm with ⟨e, rfl⟩ | ⟨token, rfl⟩
            · exact hcons _ answer rfl (hstopped c e hhead) hanswer
            · exact hcons _ answer rfl (hmade c token hpending hhead) hanswer
      · exact (hrest st).bind fun answer st' hanswer => ensures_pure (hcons c answer rfl hhead hanswer)

end Session

namespace LocalFiles

open Act Disk

variable {l : LocalFiles} {d d₁ : Disk} {c : Change} {cs : List Change} {place : Path}
  {s : Session Disk} {is : List Instruction}

/-! ## Preparing -/

theorem fileAt_of_look_none (h : d.look (.ofPath place) = .ok none) : d.fileAt place = none := by
  cases hfile : d.fileAt place with
  | none => rfl
  | some bs =>
      obtain ⟨p, hfind⟩ := find_of_fileAt hfile
      cases (look_of_find hfind).symm.trans h

/-- What a fetch finds is what stands at the place. -/
theorem fileAt_of_found {path : Text} {found : Option Fetched} (h : (l.fetch path d).result = .ok found) :
    ∃ place, l.resolve path = .ok place ∧ d.fileAt place = (found.map (·.text)).map Utf8.encode := by
  cases found with
  | none =>
      cases found_of_fetch h with
      | nothing place hplace hlook => exact ⟨place, hplace, fileAt_of_look_none hlook⟩
  | some f =>
      obtain ⟨place, hplace, hfile, -⟩ := fileAt_of_fetch h
      exact ⟨place, hplace, hfile⟩

theorem ensures_note_eq (hjournal : s.journal = none) (ns : List Note) (d : Disk) :
    (s.note ns).Ensures d fun _ d' => d' = d := by
  rw [Session.note, hjournal]
  exact fun _ _ => rfl

/-- Applying its instructions does not change what a change recalls. -/
theorem ensures_merge_recalls (hjournal : s.journal = none) (h : c.Recalls l d₁) (d : Disk) :
    (s.merge c).Ensures d fun c' d' => d' = d ∧ c'.path = c.path ∧ c'.instructions = c.instructions ∧
      c'.Recalls l d₁ := by
  refine (ensures_note_eq hjournal _ d).bind ?_
  rintro - d' rfl
  obtain ⟨hpath, hinstructions, -⟩ := Session.merged_keeps c (s.merger.applyAll c.instructions c.before)
  exact ensures_pure ⟨rfl, hpath, hinstructions,
    h.congr hpath hinstructions (Session.before_merged c _)⟩

/-- A change that is prepared recalls its file, unless that could not be fetched. -/
theorem ensures_prepareFile_recalls (hstore : s.store = l.store) (hjournal : s.journal = none)
    (ref : Option Text) (p : Text) (is : List Instruction) (d : Disk) :
    (s.prepareFile ref p is).Ensures d fun c d' => d' = d ∧ c.path = p ∧ c.instructions = is ∧
      (c.status = .pending ∨ c.status = .success → c.Recalls l d) := by
  have hmerge : ∀ c : Change, c.path = p → c.instructions = is → c.Recalls l d →
      (s.merge c).Ensures d fun c' d' => d' = d ∧ c'.path = p ∧ c'.instructions = is ∧
        (c'.status = .pending ∨ c'.status = .success → c'.Recalls l d) := by
    intro c hpath hinstructions h
    refine (ensures_merge_recalls hjournal h d).mono ?_
    rintro c' d' ⟨hd, hpath', hinstructions', hrecalls⟩
    exact ⟨hd, hpath'.trans hpath, hinstructions'.trans hinstructions, fun _ => hrecalls⟩
  rw [Session.prepareFile]
  split
  -- what is only created is not fetched
  · rename_i hcreates
    exact hmerge _ rfl rfl (by rw [Change.Recalls, if_pos hcreates])
  · rename_i hfetched
    refine (ensures_attempt _ _).bind fun answer d' hanswer => ?_
    rw [hstore] at hanswer
    obtain ⟨hresult, rfl⟩ := hanswer
    have hstays : (l.store.fetch p ref d).state = d := (keeps_fetch l p d).symm
    rw [hstays]
    rcases answer with e | found
    · refine ensures_pure ⟨rfl, rfl, rfl, ?_⟩
      rintro (hstatus | hstatus)
      · cases hstatus
      · cases hstatus
    · have hrecalls := fileAt_of_found hresult
      rcases found with _ | f
      · exact hmerge _ rfl rfl (by rw [Change.Recalls, if_neg hfetched]; exact hrecalls)
      · exact hmerge _ rfl rfl (by rw [Change.Recalls, if_neg hfetched]; exact hrecalls)

/-- The changes of a message recall the files that it names. -/
theorem ensures_prepare_stems (hstore : s.store = l.store) (hjournal : s.journal = none)
    (message : Text) (ref : Option Text) (d : Disk) :
    (s.prepare message ref none).Ensures d fun b d' => d' = d ∧
      ∀ c ∈ b.changes, c.Stems l d (Message.parse s.config.fileTag message).instructions := by
  refine Session.ensures_prepare_selected (· = d) (fun cs d' => d' = d ∧ ∀ c ∈ cs,
    c.Stems l d (Message.parse s.config.fileTag message).instructions) rfl
    (fun ns d' hd => hd ▸ ensures_note_eq hjournal ns d') ?_
  rintro d' rfl
  refine (Session.ensures_prepareFiles (· = d')
    (fun c => c.status = .pending ∨ c.status = .success → c.Recalls l d')
    (fun ns _ hd => hd ▸ ensures_note_eq hjournal ns d') ?_ rfl).mono ?_
  · rintro g - _ rfl
    refine (ensures_prepareFile_recalls hstore hjournal _ g.1 g.2 _).mono ?_
    rintro c _ ⟨hd, hpath, hinstructions, hrecalls⟩
    exact ⟨hd, Prod.ext hpath hinstructions, hrecalls⟩
  rintro cs d'' ⟨hd, hgroups, hall⟩
  refine ⟨hd, fun c hc => ?_⟩
  have hrecalls := hall c hc
  have hgroup : (c.path, c.instructions) ∈ Instruction.groupByPath
      (Message.parse s.config.fileTag message).instructions :=
    hgroups ▸ List.mem_map_of_mem hc
  have hpath := List.mem_map_of_mem (f := (·.1)) hgroup
  rw [Instruction.map_fst_groupByPath, Instruction.mem_paths] at hpath
  exact ⟨hpath, Instruction.snd_of_mem_groupByPath hgroup, hrecalls⟩

/-- The changes of a run recall the files that its message names, and have different paths. -/
theorem ensures_run_stems (hstore : s.store = l.store) (hjournal : s.journal = none) (message : Text)
    (ref : Option Text) (isDry : Bool) (d : Disk) :
    (s.run message ref isDry).Ensures d fun b _ => (b.changes.map (·.path)).Nodup ∧
      ∀ c ∈ b.changes, c.Stems l d (Message.parse s.config.fileTag message).instructions := by
  have hprepare : (s.prepare message ref none).Ensures d fun b _ => (b.changes.map (·.path)).Nodup ∧
      ∀ c ∈ b.changes, c.Stems l d (Message.parse s.config.fileTag message).instructions := by
    intro b hb
    exact ⟨(Session.ensures_prepare message ref none b hb).1,
      (ensures_prepare_stems hstore hjournal message ref d b hb).2⟩
  refine hprepare.bind ?_
  rintro b d₁ ⟨hnodup, hstems⟩
  split
  · exact ensures_pure ⟨hnodup, hstems⟩
  · have hcommit : (s.commit b ref).Ensures d₁ fun answer _ =>
        (answer.1.changes.map (·.path)).Nodup ∧ ∀ c ∈ answer.1.changes,
          c.Stems l d (Message.parse s.config.fileTag message).instructions := by
      refine (Session.ensures_commitChanges _ (fun c e h => h.stopped e)
        (fun c token hpending h => h.made hpending token) _ hstems d₁).bind fun answer _ hanswer => ?_
      exact ensures_pure ⟨hanswer.1 ▸ hnodup, hanswer.2⟩
    refine hcommit.bind ?_
    rintro ⟨b', _ | e⟩ _ hanswer
    · exact ensures_pure hanswer
    · exact nofun

/-! ## The texts after -/

/-- A turn puts no file at a place but its own. -/
theorem Turn.no_file (h : Turn l c d d₁) (hnone : ∀ bs, d.get? place ≠ some (.file bs))
    (hother : c.status = .success → l.resolve c.path ≠ .ok place) (bs : Bytes) :
    d₁.get? place ≠ some (.file bs) := by
  intro hfile
  rcases h.elsewhere hother with rfl | ⟨q, -, -, grows⟩ | ⟨q, -, -, hne, spares⟩
  · exact hnone bs hfile
  · exact hnone bs ((grows.sameFiles place bs).mp hfile)
  · exact hnone bs ((spares.sameFilesBut place hne bs).mp hfile)

theorem Turns.no_file (h : Turns l d cs d₁) (hnone : ∀ bs, d.get? place ≠ some (.file bs))
    (hother : ∀ c ∈ cs, c.status = .success → l.resolve c.path ≠ .ok place) (bs : Bytes) :
    d₁.get? place ≠ some (.file bs) := by
  induction h with
  | nil => exact hnone bs
  | cons turn _ ih =>
      refine ih (turn.no_file hnone (hother _ List.mem_cons_self)) fun c hc =>
        hother c (List.mem_cons_of_mem _ hc)

/-- A change that was made has left its result at its place, unless a later one was made there. -/
theorem Turns.result (hroot : l.root.IsPlain) {cs₁ cs₂ : List Change}
    (h : Turns l d (cs₁ ++ c :: cs₂) d₁) (hstatus : c.status = .success)
    (hother : ∀ c' ∈ cs₂, ∀ place, l.resolve c.path = .ok place → l.resolve c'.path ≠ .ok place) :
    ∃ place, l.resolve c.path = .ok place ∧ d₁.fileAt place = c.result.map Utf8.encode := by
  obtain ⟨d₂, d₃, hturn, hrest⟩ := h.split
  rw [Change.result]
  cases hturn with
  | idle unmade => exact absurd hstatus unmade
  | stopped _ _ unmade => exact absurd hstatus unmade
  | made _ _ made =>
      cases made with
      | written place text isDeletion after resolved spares file =>
          have hplain := isPlain_of_resolve hroot resolved
          have hfile := hrest.fileAt hplain file fun c' hc' _ => hother c' hc' place resolved
          rw [if_neg (by rw [isDeletion]; exact Bool.false_ne_true), after]
          exact ⟨place, resolved, hfile⟩
      | deleted place isDeletion resolved spares gone short =>
          have hplain := isPlain_of_resolve hroot resolved
          have hnone : ∀ bs, d₃.get? place ≠ some (.file bs) := fun bs => by
            rw [gone]
            exact nofun
          have hleft := hrest.no_file hnone fun c' hc' _ => hother c' hc' place resolved
          rw [if_pos isDeletion]
          refine ⟨place, resolved, ?_⟩
          cases hfile : d₁.fileAt place with
          | none => rfl
          | some bs => exact absurd (get?_of_fileAt hplain hfile) (hleft bs)

end LocalFiles

open LocalFiles

/-- What a record tells of its file, `is` being the instructions of the message: the text that the file
has on the disk afterwards, and the text that it had before, unless the file was only created. -/
structure History.Record.Tells (l : LocalFiles) (is : List Instruction) (before after : Disk)
    (r : History.Record) : Prop where
  after : ∃ place, l.resolve r.path = .ok place ∧ after.fileAt place = r.after.map Utf8.encode
  before : (∃ i ∈ is, i.path = r.path ∧ i.operation ≠ .create) →
    ∃ place, l.resolve r.path = .ok place ∧ before.fileAt place = r.before.map Utf8.encode
  created : (∀ i ∈ is, i.path = r.path → i.operation = .create) → r.before = none

/-- **The history recalls what a run did** to the files that it fetched, and what it left in each, if
the paths of the message mean different places. -/
theorem Session.run_recalled (l : LocalFiles) (hroot : l.root.IsPlain) (config : Config)
    (message : Text) (ref : Option Text) (isDry : Bool) (d : Disk) (b : Batch) (repository : Text)
    (supply : Supply) :
    let s : Session Disk := { store := l.store, config }
    let is := (Message.parse config.fileTag message).instructions
    (∀ i ∈ is, ∀ j ∈ is, i.path ≠ j.path → ∀ place, l.resolve i.path = .ok place →
      l.resolve j.path ≠ .ok place) →
    (s.run message ref isDry d).result = .ok b →
    ∀ r ∈ (History.Entry.ofBatch b repository supply).1.changes, r.status = .success →
      r.Tells l is d (s.run message ref isDry d).state := by
  intro s is hapart hrun r hr hstatus
  obtain ⟨c, hc, rfl⟩ := List.mem_map.mp hr
  have hc := (List.mem_filter.mp hc).1
  obtain ⟨hnodup, hstems⟩ := ensures_run_stems (s := s) (l := l) rfl rfl message ref isDry d b hrun
  obtain ⟨d₁, hturns⟩ := turns_of_run (s := s) (l := l) rfl rfl hroot message isDry d b hrun
  have hstem := hstems c hc
  have hrecalls := hstem.recalls (.inr hstatus)
  rw [Change.Recalls, hstem.instructions] at hrecalls
  refine ⟨?_, ?_, ?_⟩
  · obtain ⟨cs₁, cs₂, hchanges⟩ := List.append_of_mem hc
    rw [hchanges] at hturns hnodup hstems
    refine Turns.result hroot hturns hstatus fun c' hc' => ?_
    obtain ⟨i, hi, hpath⟩ := List.mem_map.mp hstem.path
    obtain ⟨j, hj, hpath'⟩ := List.mem_map.mp
      (hstems c' (List.mem_append_right _ (List.mem_cons_of_mem _ hc'))).path
    have hne : c.path ≠ c'.path := by
      rw [List.map_append, List.map_cons, List.nodup_append] at hnodup
      intro hsame
      exact (List.nodup_cons.mp hnodup.2.1).1 (hsame ▸ List.mem_map_of_mem hc')
    rw [← hpath, ← hpath'] at hne ⊢
    exact hapart i hi j hj hne
  · rintro ⟨i, hi, hpath, hoperation⟩
    rwa [if_neg] at hrecalls
    intro hall
    have hcreate := List.all_eq_true.mp hall i (List.mem_filter.mpr ⟨hi, decide_eq_true hpath⟩)
    exact hoperation (of_decide_eq_true hcreate)
  · intro hcreates
    rwa [if_pos] at hrecalls
    refine List.all_eq_true.mpr fun i hi => decide_eq_true ?_
    obtain ⟨hi, hpath⟩ := List.mem_filter.mp hi
    exact hcreates i hi (of_decide_eq_true hpath)

/-- A supply that gives the same time and the same identifier whenever it is asked. -/
def sampleSupply : Supply := { time := fun _ => ⟨0, none⟩, identifier := fun _ => [] }

/-- A deleted file and a new one are recalled. -/
theorem Session.run_recalled_sample :
    let s : Session Disk := { store := sampleFiles.store }
    let is := (Message.parse .standard sampleChanges).instructions
    let d := sampleDisk (some "old")
    sampleFiles.root.IsPlain ∧
      (∀ i ∈ is, ∀ j ∈ is, i.path ≠ j.path → ∀ place, sampleFiles.resolve i.path = .ok place →
        sampleFiles.resolve j.path ≠ .ok place) ∧
      ∃ b, (s.run sampleChanges none false d).result = .ok b ∧
        (History.Entry.ofBatch b [] sampleSupply).1.changes.map (fun r => (r.status, r.before, r.after)) =
          [(.success, some "old".toList, none), (.success, none, some "two".toList)] ∧
        ∀ r ∈ (History.Entry.ofBatch b [] sampleSupply).1.changes, r.status = .success →
          r.Tells sampleFiles is d (s.run sampleChanges none false d).state := by
  intro s is d
  have hplaces : ∀ i ∈ is, ∀ j ∈ is, i.path ≠ j.path →
      (sampleFiles.resolve i.path).toOption ≠ (sampleFiles.resolve j.path).toOption := by
    decide +kernel
  have hapart : ∀ i ∈ is, ∀ j ∈ is, i.path ≠ j.path → ∀ place, sampleFiles.resolve i.path = .ok place →
      sampleFiles.resolve j.path ≠ .ok place := fun i hi j hj hne place hplace hsame =>
    hplaces i hi j hj hne (by rw [hplace, hsame])
  obtain ⟨b, hrun, hentry⟩ : ∃ b, (s.run sampleChanges none false d).result = .ok b ∧
      (History.Entry.ofBatch b [] sampleSupply).1.changes.map (fun r => (r.status, r.before, r.after)) =
        [(.success, some "old".toList, none), (.success, none, some "two".toList)] :=
    Act.exists_of_answer (by decide +kernel)
  exact ⟨isPlain_sampleFiles, hapart, b, hrun, hentry, Session.run_recalled sampleFiles
    isPlain_sampleFiles {} sampleChanges none false d b [] sampleSupply hapart hrun⟩

/-- A file that is created anew is not recalled: its record tells of no text before, although the file
had one. -/
theorem Session.run_forgets :
    let s : Session Disk := { store := sampleFiles.store }
    let r := s.run "[FILE] a.txt\n[CREATE]new[/CREATE]".toList none false (sampleDisk (some "old"))
    (r.result.toOption.map fun b => (History.Entry.ofBatch b [] sampleSupply).1.changes.map
      fun r => (r.path, r.status, r.before)) = some [("a.txt".toList, .success, none)] ∧
      (sampleDisk (some "old")).fileAt samplePlace = some (Utf8.encode "old".toList) := by
  decide +kernel

end Emend
