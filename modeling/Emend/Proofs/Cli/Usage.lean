import Emend.Main
import Emend.Proofs.Batch.Halts
import Emend.Proofs.Batch.Ready
import Emend.Proofs.Batch.RunLog
import Emend.Proofs.Store.GitWorktree

/-!
# Calls that end as wrong usage

A call of `apply` first prepares: it reads the configuration, starts the log, opens the store, reads the
message and fetches the files that it names. All of this writes the files of the log and nothing else,
whatever comes of it. Only then are changes made, and what fails from there on is reported with the same
code. So the code alone does not tell that nothing was changed: it does unless the failure is that of a
change, of committing the index, of the history or of the summary.
-/

namespace Emend

variable {ρ α β : Type} {view : ρ → β}

/-! ## Worlds that keep their files -/

namespace World

variable {w w' w'' : World ρ}

/-- From the one world to the other no file has changed but those that are held open. -/
structure Spared (view : ρ → β) (w w' : World ρ) : Prop where
  streams : w'.host.disk.streams = w.host.disk.streams
  entries : ∀ p ∉ w.host.disk.held, w'.host.disk.get? p = w.host.disk.get? p
  repository : ∀ r ∈ w.repository, r ∈ w'.repository
  remote : view w'.remote = view w.remote

theorem Spared.held (h : Spared view w w') : w'.host.disk.held = w.host.disk.held := by
  rw [Disk.held, h.streams, Disk.held]

theorem Spared.trans (h : Spared view w w') (h' : Spared view w' w'') : Spared view w w'' where
  streams := h'.streams.trans h.streams
  entries p hp := (h'.entries p (h.held ▸ hp)).trans (h.entries p hp)
  repository r hr := h'.repository r (h.repository r hr)
  remote := h'.remote.trans h.remote

instance : Std.Refl (Spared view) := ⟨fun _ => ⟨rfl, fun _ _ => rfl, fun _ hr => hr, rfl⟩⟩

instance : IsTrans (World ρ) (Spared view) := ⟨fun _ _ _ => Spared.trans⟩

/-- From the one world to the other no file was created, changed or deleted, but for those that are held
open in the end; those are the files of the log. There may be new directories. The repository on the disk
is the same, and so is what `view` shows of the hosting service. -/
structure Untouched (view : ρ → β) (w w' : World ρ) : Prop where
  entries : ∀ p ∉ w'.host.disk.held, w'.host.disk.get? p = w.host.disk.get? p ∨
    w.host.disk.get? p = none ∧ w'.host.disk.get? p = some .directory
  repository : ∀ r ∈ w.repository, r ∈ w'.repository
  remote : view w'.remote = view w.remote

theorem Untouched.refl (w : World ρ) : Untouched view w w := ⟨fun _ _ => .inl rfl, fun _ hr => hr, rfl⟩

theorem Untouched.spared (h : Untouched view w w') (h' : Spared view w' w'') :
    Untouched view w w'' where
  entries p hp := by
    rw [h'.held] at hp
    rw [h'.entries p hp]
    exact h.entries p hp
  repository r hr := h'.repository r (h.repository r hr)
  remote := h'.remote.trans h.remote

end World

/-! ## Fetching -/

open Act

/-- The states of a service are alike in what `view` shows of them. -/
def Hosting.Alike (view : ρ → β) (r r' : ρ) : Prop := view r' = view r

instance : Std.Refl (Hosting.Alike view) := ⟨fun _ => rfl⟩

instance : IsTrans ρ (Hosting.Alike view) := ⟨fun _ _ _ h h' => Eq.trans h' h⟩

/-- What a service holds is not changed by asking for it. -/
def Hosting.ReadsOnly (service : Hosting ρ) (view : ρ → β) : Prop :=
  ∀ path ref r, view (service.getContents path ref r).2 = view r

variable {service : Hosting ρ}

theorem GitHub.keeps_fetch (hreads : service.ReadsOnly view) (path : Text) (ref : Option Text) :
    (GitHub.fetch service path ref).Keeps (Hosting.Alike view) := by
  have hrequest : (request (service.getContents path (named ref))).Keeps (Hosting.Alike view) :=
    hreads path (named ref)
  rw [fetch]
  refine hrequest.bind fun answer => ?_
  split
  · exact (keeps_note _).bind fun _ => (reads_pure _).keeps
  · exact (reads_fail _).keeps
  · exact (reads_fail _).keeps
  · split
    · exact (reads_fail _).keeps
    · exact (keeps_note _).bind fun _ => (reads_pure _).keeps

/-- No store changes a file by fetching. -/
theorem OpenStore.keeps_fetch (hreads : service.ReadsOnly view) (s : OpenStore) (path : Text)
    (ref : Option Text) : ((s.store service).fetch path ref).Keeps (World.Spared view) := by
  cases s with
  | localFiles s =>
      refine (s.keeps_fetch path).focus fun w d hd => ?_
      rw [← hd]
      exact refl_of _ w
  | git s =>
      refine (s.keeps_fetch path ref).focus fun w t ht => ?_
      rw [← ht]
      refine ⟨rfl, fun _ _ => rfl, fun r hr => ?_, rfl⟩
      rw [World.withWorktree, World.worktree, hr]
      rfl
  | github g => exact (GitHub.keeps_fetch hreads path ref).focus fun w r hr =>
      ⟨rfl, fun _ _ => rfl, fun _ h => h, hr⟩

namespace Cli

theorem spared_record (n : Note) (w : World ρ) : World.Spared view w (record n w) := by
  obtain ⟨hstreams, hentries⟩ :=
    w.host.disk.addTo_spares (RunLog.fileName n.channel).toList (Utf8.encode (RunLog.noteLine n))
  exact ⟨hstreams, hentries, fun _ hr => hr, rfl⟩

/-- Preparing a message changes no file but those of the log. -/
theorem keeps_prepare (hreads : service.ReadsOnly view) (c : Config) (s : OpenStore) (message : Text)
    (ref : Option Text) (selection : Option (List Int)) :
    ((openSession service c s).prepare message ref selection).Keeps (World.Spared view) :=
  Session.keeps_prepare (fun path ref => (s.keeps_fetch hreads path ref).recording spared_record)
    (fun ns => (keeps_notes ns).recording spared_record) message ref selection

/-! ## The course of a call -/

/-- What a call of `apply` has when it comes to make changes. -/
structure Prepared where
  config : Config
  log : Option RunLog
  store : OpenStore
  batch : Batch

/-- What a call of `apply` does before it makes changes. It answers nothing if it ends there as wrong
usage. -/
def Arguments.prepare (service : Hosting ρ) (input : Bytes) (a : Arguments) (source : Text)
    (only : Option (List Int)) (given : Option Text) : Act (Console ρ) (Option Prepared) := do
  let c ← onHost a.resolve
  let log ← onHost (a.startLog c)
  let s ← inWorld (Act.reading c.openStore)
  if !(given.getD []).isEmpty && !s.isGit then
    complain ["--commit-git requires the git store".toList]
    return none
  else
    let message ← onHost (readMessage input source)
    let b ← inWorld ((openSession service c s).prepare message none only)
    if !b.ignored.isEmpty then
      complain [ignoredLine b.ignored]
      return none
    else return some ⟨c, log, s, b⟩

/-- What a call of `apply` does from there on. -/
def Prepared.apply (service : Hosting ρ) (given : Option Text) (p : Prepared) :
    Act (Console ρ) ExitCode := do
  let session := openSession service p.config p.store
  match ← inWorld (session.commit p.batch none) with
  | (_, some e) => Act.fail e
  | (b, none) =>
    say (b.changes.flatMap changeLines)
    complain (errorLines b.errors)
    commitIndex b (given.getD [])
    recordHistory p.config session.store.describe b
    summarize p.log b
    return batchCode b

/-- The two follow one another. -/
theorem perform_apply (service : Hosting ρ) (input : Bytes) {a : Arguments} {source : Text}
    {only : Option (List Int)} {given : Option Text} (ha : a.command = .apply source only given) :
    a.perform service input = a.prepare service input source only given >>= fun p =>
      match p with
      | none => pure .usage
      | some p => p.apply service given := by
  rw [Arguments.perform, ha, Arguments.prepare]
  simp only [bind_assoc]
  refine bind_congr fun c => bind_congr fun log => ?_
  rw [Command.perform, applyChanges]
  refine bind_congr fun s => ?_
  split
  · simp only [bind_assoc, pure_bind]
  · simp only [bind_assoc]
    refine bind_congr fun message => bind_congr fun b => ?_
    split
    · simp only [bind_assoc, pure_bind]
    · rfl

/-! ## What is done before changes are made -/

theorem reads_place (path : Text) : (Host.place path).Reads := reads_reading _

theorem reads_bytesAt (l : Location) : (Host.bytesAt l).Reads :=
  (reads_ofExcept _).bind fun _ => reads_reading _

theorem reads_load (path : Text) : (Config.load path).Reads := by
  refine (reads_place path).bind fun l => (reads_bytesAt l).outcome.bind fun r => ?_
  split
  · exact reads_ofExcept _
  · exact reads_fail _
  · exact reads_fail _

theorem reads_resolve (a : Arguments) : a.resolve.Reads := by
  refine Reads.bind ?_ fun c => reads_ofExcept _
  cases a.config with
  | some path => exact reads_load path
  | none =>
      have hthere : ∀ l, (Host.isThere l).Reads := by
        intro l
        rw [Host.isThere]
        split
        · exact reads_pure _
        · exact reads_reading _
      refine (reads_place _).bind fun l => (hthere l).bind fun found => ?_
      split
      · exact reads_load _
      · exact reads_pure _

theorem reads_readMessage (input : Bytes) (source : Text) : (readMessage input source).Reads := by
  rw [readMessage]
  split
  · refine (reads_pure input).bind fun bs => ?_
    dsimp only
    split
    · exact reads_pure _
    · exact reads_fail _
  · refine (reads_place source).bind fun l => (reads_bytesAt l).bind fun bs => ?_
    dsimp only
    split
    · exact reads_pure _
    · exact reads_fail _

theorem reads_inWorld {x : Act (World ρ) α} (h : x.Reads) : (inWorld x).Reads :=
  (h.recording record).focus fun _ => rfl

theorem reads_onHost {x : Act Host α} (h : x.Reads) : (onHost x : Act (Console ρ) α).Reads :=
  reads_inWorld (h.focus fun _ => rfl)

/-- Starting the log changes no file but those of the log. -/
theorem leaves_startLog (a : Arguments) (c : Config) {k : Console ρ} {w : World ρ}
    (hw : k.world = w.withDisk { w.host.disk with streams := [] }) :
    (onHost (a.startLog c)).Leaves k fun k' => World.Untouched view w k'.world := by
  have hstart : (a.startLog c).Leaves k.world.host fun h => k.world.host.disk.Logged h.disk := by
    rw [Arguments.startLog]
    split
    · rw [Leaves, map_apply]
      exact RunLog.leaves_start none _ (by rw [hw]; rfl)
    · exact fun _ _ => .inl rfl
  have hbefore : ∀ p, k.world.host.disk.get? p = w.host.disk.get? p := fun p => by
    rw [hw]
    rfl
  have hworld : (World.onHost (a.startLog c)).Leaves k.world (World.Untouched view w) := by
    refine ⟨fun p hp => ?_, fun r hr => ?_, ?_⟩
    · rw [← hbefore]
      exact hstart p hp
    · show r ∈ k.world.repository
      rwa [hw]
    · show view k.world.remote = view w.remote
      rw [hw]
      rfl
  exact hworld.recording fun n w' h => h.spared (spared_record n w')

/-- The console of a call that begins. -/
def Console.start (w : World ρ) : Console ρ :=
  { world := w.withDisk { w.host.disk with streams := [] } }

variable {input : Bytes} {a : Arguments} {source : Text} {only : Option (List Int)}
  {given : Option Text} {w : World ρ}

/-- **A call of `apply` up to its changes** writes the files of the log and nothing else, whatever comes
of it. -/
theorem leaves_prepare (hreads : service.ReadsOnly view) :
    (a.prepare service input source only given).Leaves (.start w)
      fun k => World.Untouched view w k.world := by
  have hthen : ∀ {γ δ : Type} {x : Act (Console ρ) γ} {f : γ → Act (Console ρ) δ} {k : Console ρ},
      World.Untouched view w k.world →
      x.Keeps (fun k k' => World.Spared view k.world k'.world) →
      (∀ c k', World.Untouched view w k'.world →
        (f c).Leaves k' fun k => World.Untouched view w k.world) →
      (x >>= f).Leaves k fun k => World.Untouched view w k.world := by
    intro γ δ x f k h hx hf
    have hfirst : x.Leaves k fun k => World.Untouched view w k.world := h.spared (hx k)
    exact hfirst.bind (fun _ h => h) hf
  have hcomplain : ∀ ls, (complain ls : Act (Console ρ) Unit).Keeps
      fun k k' => World.Spared view k.world k'.world := fun ls k => refl_of _ k.world
  have hreading : ∀ {γ : Type} {x : Act (Console ρ) γ}, x.Reads →
      x.Keeps fun k k' => World.Spared view k.world k'.world := by
    intro γ x hx k
    obtain ⟨r, hk⟩ := hx k
    rw [Leaves, hk]
    exact refl_of _ k.world
  rw [Arguments.prepare]
  have hresolve : (onHost a.resolve).Leaves (.start w) fun k => k.world = (Console.start w).world := by
    obtain ⟨r, hk⟩ := reads_onHost (reads_resolve a) (Console.start w)
    rw [Leaves, hk]
  refine hresolve.bind (fun k hk => ?_) fun c k hk => ?_
  · rw [hk]
    exact ⟨fun _ _ => .inl rfl, fun _ h => h, rfl⟩
  refine (leaves_startLog a c hk).bind (fun _ h => h) fun log k₁ h₁ => ?_
  refine hthen h₁ (hreading (reads_inWorld (reads_reading _))) fun s k₂ h₂ => ?_
  split
  · exact hthen h₂ (hcomplain _) fun _ _ h => h
  · refine hthen h₂ (hreading (reads_onHost (reads_readMessage input source))) fun message k₃ h₃ => ?_
    have hprepare : (inWorld ((openSession service c s).prepare message none only)).Keeps
        fun k k' => World.Spared view k.world k'.world :=
      ((keeps_prepare hreads c s message none only).recording spared_record).focus fun _ _ h => h
    refine hthen h₃ hprepare fun b k₄ h₄ => ?_
    split
    · exact hthen h₄ (hcomplain _) fun _ _ h => h
    · exact h₄

/-- What has been prepared selects instructions that exist. -/
theorem ignored_of_prepare (service : Hosting ρ) (input : Bytes) (a : Arguments) (source : Text)
    (only : Option (List Int)) (given : Option Text) (k : Console ρ) :
    (a.prepare service input source only given).Ensures k fun found _ =>
      ∀ p ∈ found, p.batch.ignored = [] := by
  rw [Arguments.prepare]
  refine (ensures_trivial _ _).bind fun c _ _ => (ensures_trivial _ _).bind fun log _ _ => ?_
  refine (ensures_trivial _ _).bind fun s _ _ => ?_
  split
  · exact (ensures_trivial _ _).bind fun _ _ _ => ensures_pure fun p hp =>
      absurd hp (Option.not_mem_none p)
  · refine (ensures_trivial _ _).bind fun message _ _ => (ensures_trivial _ _).bind fun b _ _ => ?_
    split
    · exact (ensures_trivial _ _).bind fun _ _ _ => ensures_pure fun p hp =>
        absurd hp (Option.not_mem_none p)
    · rename_i hignored
      refine ensures_pure ?_
      rintro p ⟨⟩
      simpa using hignored

/-! ## What fails from there on -/

/-- Why a call fails once it makes changes. -/
inductive Prepared.Halts (service : Hosting ρ) (given : Option Text) (p : Prepared) : Failure → Prop
  /-- A pending change cannot be made, and not since the store refuses. -/
  | change (c : Change) (e : Failure) (hc : c ∈ p.batch.changes) (hpending : c.status = .pending)
      (hwhy : (openSession service p.config p.store).Unmakeable
        ((openSession service p.config p.store).activeRef none) c e) : Halts service given p e
  /-- A message for a commit is given, and the index cannot be committed. -/
  | index (w : World ρ) (e : Failure) (hgiven : given.getD [] ≠ [])
      (hcommit : (GitWorktree.commit (given.getD []) none w.worktree).result = .error e) :
      Halts service given p e
  /-- A history is kept, and the batch cannot be added to it. -/
  | history (path repository : Text) (b : Batch) (h : Host) (e : Failure)
      (hpath : p.config.historyFile.getD [] = path) (hne : path ≠ [])
      (hrecord : (History.recordBatch b path repository p.config.historyLimit h).result = .error e) :
      Halts service given p e
  /-- A log is kept, and its summary cannot be written. -/
  | summary (log : RunLog) (b : Batch) (h : Host) (e : Failure) (hlog : p.log = some log)
      (hwrite : (log.writeSummary b h).result = .error e) : Halts service given p e

/-- Nothing else fails. -/
theorem halts_of_apply {p : Prepared} {k : Console ρ} {e : Failure}
    (h : (p.apply service given k).result = .error e) : p.Halts service given e := by
  obtain ⟨b, halt, hcommit, hwhy⟩ :=
    (openSession service p.config p.store).result_commit p.batch none k.world
  rw [Prepared.apply] at h
  rcases error_of_bind h with hnever | ⟨answer, hanswer, h⟩
  · cases hcommit.symm.trans hnever
  obtain rfl : (b, halt) = answer := Except.ok.inj (hcommit.symm.trans hanswer)
  cases halt with
  | some e' =>
      cases h
      obtain ⟨c, hc, hpending, hunmakeable⟩ := hwhy e rfl
      exact .change c e hc hpending hunmakeable
  | none =>
      rcases error_of_bind h with hnever | ⟨_, -, h⟩
      · cases hnever
      rcases error_of_bind h with hnever | ⟨_, -, h⟩
      · cases hnever
      rcases error_of_bind h with hindex | ⟨_, -, h⟩
      · rw [commitIndex] at hindex
        split at hindex
        · rename_i hgiven
          rcases error_of_bind hindex with hcommit | ⟨_, -, hnever⟩
          · refine .index _ e (fun hempty => ?_) hcommit
            rw [hempty] at hgiven
            cases hgiven
          · cases hnever
        · cases hindex
      rcases error_of_bind h with hhistory | ⟨_, -, h⟩
      · unfold recordHistory at hhistory
        cases hpath : p.config.historyFile.getD [] with
        | nil =>
            rw [hpath] at hhistory
            cases hhistory
        | cons ch path =>
            rw [hpath] at hhistory
            rcases error_of_bind hhistory with hrecord | ⟨_, -, hnever⟩
            · exact .history _ _ b _ e hpath (List.cons_ne_nil ch path) hrecord
            · cases hnever
      rcases error_of_bind h with hsummary | ⟨_, -, hnever⟩
      · cases hlog : p.log with
        | none =>
            rw [hlog] at hsummary
            cases hsummary
        | some log =>
            rw [hlog] at hsummary
            rcases error_of_bind hsummary with hwrite | ⟨_, -, hnever⟩
            · exact .summary log b _ e hlog hwrite
            · cases hnever
      · cases hnever

/-- A call that comes to its end has applied its batch and tells how that went. -/
theorem code_of_apply {p : Prepared} {k : Console ρ} :
    (p.apply service given).Ensures k fun code _ => code ≠ .usage := by
  refine (ensures_trivial _ _).bind fun answer _ _ => ?_
  obtain ⟨b, _ | e⟩ := answer
  · refine (ensures_trivial _ _).bind fun _ _ _ => (ensures_trivial _ _).bind fun _ _ _ => ?_
    refine (ensures_trivial _ _).bind fun _ _ _ => (ensures_trivial _ _).bind fun _ _ _ => ?_
    refine (ensures_trivial _ _).bind fun _ _ _ => ensures_pure ?_
    rw [batchCode]
    split <;> exact nofun
  · exact fun _ hnever => nomatch hnever

/-! ## The code of wrong usage -/

/-- The call of `apply`, made in the world `w`, failed with `e` after it had prepared `p` and begun to
make changes. Up to there it had changed no file. -/
structure Arguments.FailsLate (service : Hosting ρ) (view : ρ → β) (input : Bytes) (a : Arguments)
    (source : Text) (only : Option (List Int)) (given : Option Text) (w : World ρ) (p : Prepared)
    (e : Failure) : Prop where
  command : a.command = .apply source only given
  prepared : (a.prepare service input source only given (.start w)).result = .ok (some p)
  untouched :
    World.Untouched view w (a.prepare service input source only given (.start w)).state.world
  selected : p.batch.ignored = []
  failed : (p.apply service given (a.prepare service input source only given (.start w)).state).result =
    .error e
  cause : p.Halts service given e

/-- A call leaves the files alone, or comes to its end, or fails late. -/
theorem perform_cases (hreads : service.ReadsOnly view) (ha : a.command = .apply source only given) :
    World.Untouched view w (a.perform service input (.start w)).state.world ∨
      (∃ code, (a.perform service input (.start w)).result = .ok code ∧ code ≠ .usage) ∨
      ∃ p e, (a.perform service input (.start w)).result = .error e ∧
        a.FailsLate service view input source only given w p e := by
  have huntouched : World.Untouched view w
      (a.prepare service input source only given (.start w)).state.world := leaves_prepare hreads
  have hselected := ignored_of_prepare service input a source only given (.start w)
  rw [perform_apply service input ha, bind_apply]
  cases hprepare : a.prepare service input source only given (.start w) with
  | mk found k ns =>
      rw [hprepare] at huntouched
      rcases found with e | _ | p
      · exact .inl huntouched
      · exact .inl huntouched
      · right
        dsimp only
        cases hfailed : (p.apply service given k).result with
        | ok code => exact .inl ⟨code, rfl, code_of_apply code hfailed⟩
        | error e =>
            refine .inr ⟨p, e, rfl, ha, ?_, ?_, ?_, ?_, halts_of_apply hfailed⟩
            · rw [hprepare]
            · rw [hprepare]
              exact huntouched
            · exact hselected (some p) (by rw [hprepare]) p rfl
            · rw [hprepare]
              exact hfailed

theorem state_run (service : Hosting ρ) (input : Bytes) (a : Arguments) (w : World ρ) :
    (a.run service input w).state = (a.perform service input (.start w)).state.world := by
  rw [Arguments.run]
  dsimp only [Console.start]
  split
  · rfl
  · split <;> rfl

/-- A report tells how carrying out the command ended. -/
theorem ending_of_run {report : Report} (h : (a.run service input w).result = .ok report) :
    match (a.perform service input (.start w)).result with
    | .ok code => report.ending = .finished code
    | .error e => report.ending = .failed e := by
  rw [Arguments.run] at h
  change (match (a.perform service input (.start w)).result with
    | .ok code => _
    | .error e => _ : Reply (World ρ) Report).result = _ at h
  cases hresult : (a.perform service input (.start w)).result with
  | ok code =>
      rw [hresult] at h
      cases h
      rfl
  | error e =>
      rw [hresult] at h
      dsimp only at h
      split at h
      · cases h
        rfl
      · cases h

/-- **Wrong usage.** A call of `apply` that ends with code 2 has created, changed and deleted no file,
those of the log aside, unless it had begun to make changes and reports a failure that came then: a
change could not be made for a reason other than a refusal, or the index could not be committed, or the
history not be added to, or the summary not be written. -/
theorem run_usage (hreads : service.ReadsOnly view) {args : List Text} {report : Report}
    (happly : ∀ a, Request.ofList args = .ok (.run a) →
      ∃ source only given, a.command = .apply source only given)
    (hrun : (run service input args w).result = .ok report) (hcode : report.ending.code = .usage) :
    World.Untouched view w (run service input args w).state ∨
      ∃ a source only given p e, Request.ofList args = .ok (.run a) ∧ report.ending = .failed e ∧
        a.FailsLate service view input source only given w p e := by
  rw [run] at hrun ⊢
  cases hargs : Request.ofList args with
  | error e => exact .inl (.refl w)
  | ok request =>
      cases request with
      | help program => exact .inl (.refl w)
      | run a =>
          obtain ⟨source, only, given, ha⟩ := happly a hargs
          rw [hargs] at hrun
          have hending := ending_of_run hrun
          rcases perform_cases hreads ha with huntouched | ⟨code, hdone, hother⟩ | ⟨p, e, hfailed, hlate⟩
          · show World.Untouched view w (a.run service input w).state ∨ _
            rw [state_run]
            exact .inl huntouched
          · rw [hdone] at hending
            rw [hending] at hcode
            exact absurd hcode hother
          · rw [hfailed] at hending
            exact .inr ⟨a, source, only, given, p, e, rfl, hending, hlate⟩

/-! ## A call that fails late -/

def samplePerson : Git.Person := ⟨"me".toList, "me@here".toList⟩

/-- A repository in which an empty index has been committed. -/
def sampleRepository : Git.Repository :=
  ((Git.Repository.fresh ["w".toList] "main".toList samplePerson samplePerson
    "1780000000 +0000".toList).commit "start".toList none).2

/-- A file in the repository's working tree that is not listed. -/
def samplePlace : Path := ["w".toList, "a.txt".toList]

/-- The working tree with that file. -/
def sampleWorld : World Unit where
  host :=
    { disk := sampleRepository.layOut
        { entries := [(["w".toList], .directory), (samplePlace, .file (Utf8.encode "mine".toList))],
          cwd := ["w".toList], home := [] },
      supply := { time := fun _ => ⟨0, some 0⟩, identifier := fun _ => [] } }
  repository := some sampleRepository
  remote := ()

/-- A message that deletes the file. -/
def sampleMessage : Text := "[FILE] a.txt\n[DELETE_FILE]".toList

/-- A call that applies the message, with options before and after. -/
def sampleCall (before after : List String) : List Text :=
  (before ++ ["apply", "-"] ++ after).map String.toList

/-- The call with its message on the standard input. -/
def sampleRun (before after : List String) : Reply (World Unit) Report :=
  run Program.offline (Utf8.encode sampleMessage) (sampleCall before after) sampleWorld

/-- A call that selects an instruction that does not exist ends as wrong usage. -/
theorem run_usage_ignored : ∃ report,
    (sampleRun [] ["--only", "1"]).result = .ok report ∧ report.ending.code = .usage ∧
    (World.Untouched id sampleWorld (sampleRun [] ["--only", "1"]).state ∨
      ∃ a source only given p e, Request.ofList (sampleCall [] ["--only", "1"]) = .ok (.run a) ∧
        report.ending = .failed e ∧
        a.FailsLate Program.offline id (Utf8.encode sampleMessage) source only given sampleWorld p
          e) := by
  have hargs : Request.ofList (sampleCall [] ["--only", "1"]) =
      .ok (.run { command := .apply "-".toList (some [1]) none }) := by decide +kernel
  obtain ⟨report, hrun, hcode⟩ := Act.exists_of_answer
    (r := (sampleRun [] ["--only", "1"]).result) (P := fun report => report.ending.code = .usage)
    (by decide +kernel)
  refine ⟨report, hrun, hcode, run_usage (fun _ _ _ => rfl) (fun a ha => ?_) hrun hcode⟩
  rw [hargs] at ha
  cases ha
  exact ⟨_, _, _, rfl⟩

/-- The code does not tell that nothing was applied: here the file has been deleted when it turns out
that there is nothing to commit, since the file was not listed. -/
theorem not_usage_untouched :
    (∃ i ∈ (Message.parse .standard sampleMessage).instructions, i.path = "a.txt".toList) ∧
    sampleWorld.host.disk.get? samplePlace = some (.file (Utf8.encode "mine".toList)) ∧
    ∃ report, (sampleRun ["--store", "git"] ["--commit-git", "done"]).result = .ok report ∧
      report.ending.code = .usage ∧
      (sampleRun ["--store", "git"] ["--commit-git", "done"]).state.host.disk.get? samplePlace =
        none :=
  ⟨by decide +kernel, by decide +kernel, Act.exists_of_answer (by decide +kernel)⟩

end Cli

end Emend
