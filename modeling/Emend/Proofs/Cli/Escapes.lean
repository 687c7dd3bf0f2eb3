import Emend.Proofs.Cli.Usage
import Emend.Proofs.Store.Leaks

/-!
# What escapes from a run

A run ends with a code of 0, 1 or 2 and a report, unless it meets a failure that is not reported. Which
kinds of failures those are depends on the command: `Command.leaks` lists them. They are found by going
through all that a command does, from the configuration file over the store and the message to the
history and the log.

Two such failures are met easily: a message that is a directory, and a configured message for changes
that asks for something that there is not.
-/

namespace Emend

open Act Host

variable {ρ σ α : Type} {ks : List Leak}

/-! ## Settings -/

namespace Config

theorem among_of_yamlFailure (hscalar : .scalar ∈ ks) {file : Text} (e : Yaml.Error) :
    (yamlFailure file e).Among ks := by
  unfold yamlFailure
  split
  · exact Failure.among_of_isReported rfl
  · exact Failure.among_of_isReported rfl
  · exact Failure.among_of_isReported rfl
  · exact Failure.among_of_mem rfl hscalar

theorem among_of_ofBytes (hscalar : .scalar ∈ ks) (hunnamed : .unnamedSetting ∈ ks) {file : Text}
    {bs : Bytes} {e : Failure} (h : ofBytes file bs = .error e) : e.Among ks := by
  rw [ofBytes] at h
  rcases error_of_steps h with hvalue | ⟨v, -, h⟩
  · exact Failure.among_of_mapError hvalue (among_of_yamlFailure hscalar)
  rcases error_of_steps h with hsettings | ⟨settings, -, h⟩
  · rw [settingsIn] at hsettings
    split at hsettings
    · split at hsettings <;> cases hsettings <;> exact Failure.among_of_isReported rfl
    · cases hsettings
      exact Failure.among_of_isReported rfl
  · rw [ofSettings] at h
    split at h
    · cases h
      exact Failure.among_of_mem rfl hunnamed
    · split at h
      · cases h
      · cases h
        exact Failure.among_of_isReported rfl

variable (hdisk : .disk ∈ ks) (hscalar : .scalar ∈ ks) (hunnamed : .unnamedSetting ∈ ks)

include hdisk hscalar hunnamed

theorem leaksOnly_load (path : Text) : (load path).LeaksOnly ks := by
  refine (leaksOnly_place path).bind fun l h e he => ?_
  -- The failure to read the file is an answer first, so it is kept at hand.
  rcases error_of_bind he with hnever | ⟨r, hr, he⟩
  · cases hnever
  have hbytes : r = (bytesAt l h).result := (Except.ok.inj hr).symm
  split at he
  · exact among_of_ofBytes hscalar hunnamed he
  · cases he
    exact Failure.among_of_isReported rfl
  · cases he
    exact leaksOnly_bytesAt hdisk l h e hbytes.symm

theorem leaksOnly_loadOrDefault (path : Option Text) : (loadOrDefault path).LeaksOnly ks := by
  cases path with
  | some path => exact leaksOnly_load hdisk hscalar hunnamed path
  | none =>
      refine (leaksOnly_place _).bind fun l => (leaksOnly_isThere hdisk l).bind fun found => ?_
      split
      · exact leaksOnly_load hdisk hscalar hunnamed _
      · exact leaksOnly_pure _

end Config

namespace Cli

/-- What is given on the command line are settings of other names than the configuration's own. -/
theorem among_of_overridden {a : Arguments} {c : Config} {e : Failure}
    (h : overridden c a.overrides = .error e) : e.Among ks := by
  have hnames : a.overrides.any (·.1 = ownName) = false := rfl
  rw [overridden, hnames, if_neg Bool.false_ne_true] at h
  exact Failure.among_of_mapError h fun _ => Failure.among_of_isReported rfl

theorem leaksOnly_resolve (hdisk : .disk ∈ ks) (hscalar : .scalar ∈ ks)
    (hunnamed : .unnamedSetting ∈ ks) (a : Arguments) : a.resolve.LeaksOnly ks :=
  (Config.leaksOnly_loadOrDefault hdisk hscalar hunnamed a.config).bind fun _ =>
    leaksOnly_ofExcept fun _ => among_of_overridden

theorem leaksOnly_readMessage (hdisk : .disk ∈ ks) (input : Bytes) (source : Text) :
    (readMessage input source).LeaksOnly ks := by
  rw [readMessage]
  split
  · refine (leaksOnly_pure input).bind fun bs => ?_
    dsimp only
    split
    · exact leaksOnly_pure _
    · exact leaksOnly_fail (Failure.among_of_isReported rfl)
  · refine ((leaksOnly_place source).bind (leaksOnly_bytesAt hdisk)).bind fun bs => ?_
    dsimp only
    split
    · exact leaksOnly_pure _
    · exact leaksOnly_fail (Failure.among_of_isReported rfl)

end Cli

/-! ## Sessions -/

namespace Session

variable {s : Session σ}

theorem leaksOnly_note (ns : List Note) : (s.note ns).LeaksOnly ks :=
  fun st _ h => nomatch (note_result s ns st).symm.trans h

theorem leaksOnly_prepareFile (hstore : s.store.LeaksOnly ks) (ref : Option Text) (path : Text)
    (is : List Instruction) : (s.prepareFile ref path is).LeaksOnly ks :=
  fun st e he => hstore.fetch path ref st e (unfetchable_of_prepareFile he).2.1

theorem leaksOnly_prepareFiles (hstore : s.store.LeaksOnly ks) (ref : Option Text)
    (groups : List (Text × List Instruction)) : (s.prepareFiles ref groups).LeaksOnly ks := by
  induction groups with
  | nil => exact leaksOnly_pure _
  | cons g groups ih =>
      refine (leaksOnly_prepareFile hstore ref g.1 g.2).bind fun c => ?_
      exact (leaksOnly_note _).bind fun _ => ih.bind fun _ => leaksOnly_pure _

/-- Preparing leaks what the store leaks. -/
theorem leaksOnly_prepare (hstore : s.store.LeaksOnly ks) (message : Text) (ref : Option Text)
    (selection : Option (List Int)) : (s.prepare message ref selection).LeaksOnly ks := by
  refine (leaksOnly_note _).bind fun _ => ?_
  dsimp only
  have hwork : ∀ {o : Message.Outcome} {is : List Instruction} {ignored : List Int} {ns : List Note}, (do
      s.note ns
      let changes ← s.prepareFiles (s.activeRef ref) (Instruction.groupByPath is)
      return { changes, errors := o.errors, ignored } : Act σ Batch).LeaksOnly ks :=
    (leaksOnly_note _).bind fun _ =>
      (leaksOnly_prepareFiles hstore _ _).bind fun _ => leaksOnly_pure _
  split
  · exact (leaksOnly_note _).bind fun _ => hwork
  · exact hwork

/-- Why a change cannot be made leaks what the store leaks, and templates that cannot be filled. -/
theorem Unmakeable.among (hstore : s.store.LeaksOnly ks) (htemplate : .template ∈ ks)
    {ref : Option Text} {c : Change} {e : Failure} (h : s.Unmakeable ref c e) : e.Among ks := by
  cases h with
  | unfilled t _ => exact Failure.among_template htemplate t
  | failed message st _ _ hfailed _ =>
      cases hdeletion : c.isDeletion with
      | true =>
          rw [storeChange_of_isDeletion hdeletion] at hfailed
          exact (hstore.delete _ _ _ _).map _ st e hfailed
      | false =>
          rw [storeChange_of_writes hdeletion] at hfailed
          exact (hstore.write _ _ _ _ _).map _ st e hfailed

end Session

/-! ## The history and the log -/

namespace History

theorem among_of_unread (hnesting : .nesting ∈ ks) (l : Location) (n : Nat) (e : Json.Error) :
    (unread l n e).Among ks := by
  cases e with
  | tooDeep isList => exact Failure.among_of_mem rfl hnesting
  | _ => exact Failure.among_of_isReported rfl

theorem among_of_readLines (hnesting : .nesting ∈ ks) (l : Location) (ts : List Text) (n : Nat)
    (s : Supply) {e : Failure} (h : (readLines l n ts s).1 = .error e) : e.Among ks := by
  induction ts generalizing n s with
  | nil => cases h
  | cons t ts ih =>
      rw [readLines] at h
      split at h
      · exact ih (n + 1) s h
      · split at h
        · cases h
          exact among_of_unread hnesting l n _
        · split at h
          · cases h
            exact Failure.among_of_isReported rfl
          · rename_i found s' _
            dsimp only at h
            cases hrest : (readLines l (n + 1) ts s').1 with
            | ok es =>
                rw [hrest] at h
                cases h
            | error e' =>
                rw [hrest] at h
                cases h
                exact ih (n + 1) s' hrest

variable (hdisk : .disk ∈ ks) (hnesting : .nesting ∈ ks)

include hdisk hnesting

theorem leaksOnly_readEntries (l : Location) : (readEntries l).LeaksOnly ks := by
  refine (leaksOnly_examine hdisk _).bind fun bs => ?_
  refine (leaksOnly_supplied fun s e he => among_of_readLines hnesting l _ 1 s he).bind fun es => ?_
  split
  · exact leaksOnly_fail (Failure.among_of_isReported rfl)
  · exact leaksOnly_pure _

theorem leaksOnly_append (path : Text) (entry : Entry) (limit : Int) :
    (append path entry limit).LeaksOnly ks := by
  refine (leaksOnly_place path).bind fun l => ?_
  refine (leaksOnly_ofExcept fun _ => Location.among_of_checkNames).bind fun _ => ?_
  refine (leaksOnly_makeDirs hdisk _).bind fun _ => ?_
  refine (leaksOnly_ofExcept fun _ => Location.among_of_checkNames).bind fun _ => ?_
  refine (leaksOnly_alter hdisk _).bind fun _ => ?_
  refine (leaksOnly_readEntries hdisk hnesting l).bind fun es => ?_
  dsimp only
  split
  · refine (leaksOnly_alter hdisk _).bind fun _ => ?_
    exact (Act.leaksOnly_note _).bind fun _ => leaksOnly_pure _
  · exact leaksOnly_pure _

theorem leaksOnly_recordBatch (b : Batch) (path repository : Text) (limit : Int) :
    (recordBatch b path repository limit).LeaksOnly ks := by
  refine (leaksOnly_supplied (by rintro _ _ ⟨⟩)).bind fun entry => ?_
  refine (leaksOnly_append hdisk hnesting path entry limit).bind fun _ => ?_
  exact (Act.leaksOnly_note _).bind fun _ => leaksOnly_pure _

theorem leaksOnly_load (htimes : .times ∈ ks) (path : Text) : (load path).LeaksOnly ks := by
  refine (leaksOnly_place path).bind fun l => (leaksOnly_isThere hdisk l).bind fun found => ?_
  split
  · exact leaksOnly_pure _
  · refine (leaksOnly_readEntries hdisk hnesting l).bind fun es => ?_
    split
    · exact leaksOnly_fail (Failure.among_of_mem rfl htimes)
    · exact leaksOnly_pure _

theorem leaksOnly_clear (path : Text) : (clear path).LeaksOnly ks := by
  refine (leaksOnly_place path).bind fun l => (leaksOnly_isThere hdisk l).bind fun found => ?_
  split
  · exact leaksOnly_pure _
  · refine (leaksOnly_readEntries hdisk hnesting l).bind fun es => ?_
    refine (leaksOnly_alter hdisk _).bind fun _ => ?_
    exact (Act.leaksOnly_note _).bind fun _ => leaksOnly_pure _

end History

namespace RunLog

variable (hdisk : .disk ∈ ks)

include hdisk

theorem leaksOnly_start (runId logsRoot : Option Text) : (start runId logsRoot).LeaksOnly ks := by
  have hroot : ∀ rootText, (Act.reading fun h : Host => do
      (Location.ofText h.disk.cwd rootText).checkNames
      return Path.resolve h.disk.cwd rootText).LeaksOnly ks := by
    refine fun rootText => leaksOnly_reading fun h e he => ?_
    rcases error_of_steps he with hnames | ⟨_, -, hnever⟩
    · exact Location.among_of_checkNames hnames
    · cases hnever
  have hstreams : ∀ log : RunLog, (channels.forM fun c => do
      Act.modify fun h : Host => { h with disk := h.disk.closeStream (fileName c).toList }
      alter (·.openStream (fileName c).toList (log.fileAt (fileName c)))).LeaksOnly ks := fun log =>
    leaksOnly_forM (fun c => (leaksOnly_modify _).bind fun _ => leaksOnly_alter hdisk _) channels
  have hrest : ∀ (root : Path) (runId : Text), (do
      let now ← readClock
      let name := now.nameText ++ '-' :: runId.take 6
      let below := (Location.ofText root name).names
      let log : RunLog := { runId, root, directory := .ofPath (root ++ below) }
      Act.ofExcept log.directory.checkNames
      makeDirs log.directory
      channels.forM fun c => do
        Act.modify fun h => { h with disk := h.disk.closeStream (fileName c).toList }
        alter (·.openStream (fileName c).toList (log.fileAt (fileName c)))
      return log : Act Host RunLog).LeaksOnly ks := by
    intro root runId
    refine (leaksOnly_supplied (by rintro _ _ ⟨⟩)).bind fun now => ?_
    refine (leaksOnly_ofExcept fun _ => Location.among_of_checkNames).bind fun _ => ?_
    exact (leaksOnly_makeDirs hdisk _).bind fun _ => (hstreams _).bind fun _ => leaksOnly_pure _
  refine (hroot _).bind fun root => (leaksOnly_makeDirs hdisk _).bind fun _ => ?_
  split
  · exact (leaksOnly_supplied (by rintro _ _ ⟨⟩)).bind (hrest root)
  · exact (leaksOnly_pure _).bind (hrest root)

theorem leaksOnly_writeSummary (log : RunLog) (b : Batch) : (log.writeSummary b).LeaksOnly ks :=
  (leaksOnly_alter hdisk _).bind fun _ => (leaksOnly_note _).bind fun _ => leaksOnly_pure _

end RunLog

/-! ## Commands -/

namespace Cli

/-- The kinds of failures that a command meets beyond the configuration and the log, and does not
report. -/
def Command.ownLeaks : Command → List Leak
  | parse _ => []
  | preview _ _ _ => [.home, .revision]
  | apply _ _ _ => [.home, .revision, .template, .nesting]
  | history true _ _ => [.nesting]
  | history false _ _ => [.nesting, .times]

/-- The kinds of failures that a command meets and does not report. -/
def Command.leaks (c : Command) : List Leak := [.disk, .unnamedSetting, .scalar] ++ c.ownLeaks

theorem leaksOnly_inWorld {x : Act (World ρ) α} (h : x.LeaksOnly ks) : (inWorld x).LeaksOnly ks :=
  (h.recording record).focus _ _

theorem leaksOnly_onHost {x : Act Host α} (h : x.LeaksOnly ks) :
    (onHost x : Act (Console ρ) α).LeaksOnly ks := leaksOnly_inWorld (h.focus _ _)

theorem leaksOnly_say (ls : List Text) : (say ls : Act (Console ρ) Unit).LeaksOnly ks :=
  leaksOnly_modify _

theorem leaksOnly_complain (ls : List Text) : (complain ls : Act (Console ρ) Unit).LeaksOnly ks :=
  leaksOnly_modify _

theorem leaksOnly_listInstructions (c : Config) (message : Text) :
    (listInstructions c message : Act (Console ρ) ExitCode).LeaksOnly ks :=
  (leaksOnly_inWorld (leaksOnly_notes _)).bind fun _ => (leaksOnly_say _).bind fun _ =>
    (leaksOnly_complain _).bind fun _ => leaksOnly_pure _

theorem leaksOnly_listHistory (hdisk : .disk ∈ ks) (hnesting : .nesting ∈ ks) (htimes : .times ∈ ks)
    (path : Text) (limit : Option Int) (showsChanges : Bool) :
    (listHistory path limit showsChanges : Act (Console ρ) ExitCode).LeaksOnly ks := by
  refine (leaksOnly_onHost (History.leaksOnly_load hdisk hnesting htimes path)).bind fun es => ?_
  have hlist : ∀ es : List History.Entry, (do
      if es.isEmpty then say ["(no history)".toList]
      say (es.flatMap (entryLines showsChanges))
      return .ok : Act (Console ρ) ExitCode).LeaksOnly ks := by
    intro es
    split
    · exact (leaksOnly_say _).bind fun _ => (leaksOnly_say _).bind fun _ => leaksOnly_pure _
    · exact (leaksOnly_say _).bind fun _ => leaksOnly_pure _
  cases limit with
  | none => exact hlist es
  | some n => exact hlist (es.take n.toNat)

theorem leaksOnly_showHistory (hdisk : .disk ∈ ks) (hnesting : .nesting ∈ ks) (c : Config)
    {clears : Bool} (htimes : clears = false → .times ∈ ks) (limit : Option Int) (showsChanges : Bool) :
    (showHistory c clears limit showsChanges : Act (Console ρ) ExitCode).LeaksOnly ks := by
  rw [showHistory]
  split
  · exact (leaksOnly_complain _).bind fun _ => leaksOnly_pure _
  · split
    · refine (leaksOnly_onHost (History.leaksOnly_clear hdisk hnesting _)).bind fun n => ?_
      exact (leaksOnly_say _).bind fun _ => leaksOnly_pure _
    · rename_i hlists
      exact leaksOnly_listHistory hdisk hnesting (htimes (Bool.eq_false_iff.mpr hlists)) _ _ _

section

variable (service : Hosting ρ) (hdisk : .disk ∈ ks) (hhome : .home ∈ ks) (hrevision : .revision ∈ ks)

include hdisk hhome

theorem leaksOnly_openStore (c : Config) :
    (inWorld (Act.reading c.openStore) : Act (Console ρ) OpenStore).LeaksOnly ks :=
  leaksOnly_inWorld (leaksOnly_reading fun _ _ => Config.among_of_openStore hdisk hhome)

omit hhome

include hrevision

theorem leaksOnly_openSession (c : Config) (s : OpenStore) :
    (openSession service c s).store.LeaksOnly ks :=
  (OpenStore.leaksOnly_store hdisk hrevision service s).recording record

include hhome

theorem leaksOnly_previewChanges (input : Bytes) (c : Config) (source : Text) (context : Int)
    (only : Option (List Int)) :
    (previewChanges service input c source context only).LeaksOnly ks := by
  refine (leaksOnly_openStore hdisk hhome c).bind fun s => ?_
  refine (leaksOnly_onHost (leaksOnly_readMessage hdisk input source)).bind fun message => ?_
  have hprepare := Session.leaksOnly_prepare (leaksOnly_openSession service hdisk hrevision c s) message
    none only
  refine (leaksOnly_inWorld hprepare).bind fun b => ?_
  split
  · exact (leaksOnly_complain _).bind fun _ => leaksOnly_pure _
  · exact (leaksOnly_say _).bind fun _ => (leaksOnly_complain _).bind fun _ => leaksOnly_pure _

theorem leaksOnly_prepare (input : Bytes) {a : Arguments} (source : Text)
    (only : Option (List Int)) (given : Option Text) (hresolve : a.resolve.LeaksOnly ks)
    (hlog : ∀ c, (a.startLog c).LeaksOnly ks) :
    (a.prepare service input source only given).LeaksOnly ks := by
  refine (leaksOnly_onHost hresolve).bind fun c => (leaksOnly_onHost (hlog c)).bind fun log => ?_
  refine (leaksOnly_openStore hdisk hhome c).bind fun s => ?_
  split
  · exact (leaksOnly_complain _).bind fun _ => leaksOnly_pure _
  · refine (leaksOnly_onHost (leaksOnly_readMessage hdisk input source)).bind fun message => ?_
    have hprepare := Session.leaksOnly_prepare (leaksOnly_openSession service hdisk hrevision c s)
      message none only
    refine (leaksOnly_inWorld hprepare).bind fun b => ?_
    split
    · exact (leaksOnly_complain _).bind fun _ => leaksOnly_pure _
    · exact leaksOnly_pure _

omit hhome

/-- What fails once changes are made is what the store leaks, or a message that cannot be filled, or lies
with the history. -/
theorem Prepared.Halts.among (htemplate : .template ∈ ks) (hnesting : .nesting ∈ ks)
    {given : Option Text} {p : Prepared} {e : Failure} (h : p.Halts service given e) : e.Among ks := by
  cases h with
  | change c e _ _ hwhy =>
      exact hwhy.among (leaksOnly_openSession service hdisk hrevision p.config p.store) htemplate
  | index w e _ hcommit => exact GitWorktree.leaksOnly_commit _ none w.worktree e hcommit
  | history path repository b host e _ _ hrecord =>
      exact History.leaksOnly_recordBatch hdisk hnesting b path repository _ host e hrecord
  | summary log b host e _ hwrite => exact log.leaksOnly_writeSummary hdisk b host e hwrite

end

theorem leaksOnly_startLog (hdisk : .disk ∈ ks) (a : Arguments) (c : Config) :
    (a.startLog c).LeaksOnly ks := by
  rw [Arguments.startLog]
  split
  · exact (RunLog.leaksOnly_start hdisk _ _).map some
  · exact leaksOnly_pure _

/-- Every command leaks failures of its kinds only. -/
theorem leaksOnly_perform (service : Hosting ρ) (input : Bytes) (a : Arguments) :
    (a.perform service input).LeaksOnly a.command.leaks := by
  obtain ⟨ks, hks⟩ : ∃ ks, ks = a.command.leaks := ⟨_, rfl⟩
  have hdisk : .disk ∈ ks := by simp [hks, Command.leaks]
  have hunnamed : .unnamedSetting ∈ ks := by simp [hks, Command.leaks]
  have hscalar : .scalar ∈ ks := by simp [hks, Command.leaks]
  have hresolve := leaksOnly_resolve hdisk hscalar hunnamed a
  have hlog := leaksOnly_startLog hdisk a
  -- All commands begin alike. What is left is what they do with their configuration.
  have hbegin : (∀ c log, (a.command.perform service input c log).LeaksOnly ks) →
      (a.perform service input).LeaksOnly ks := fun hcommand =>
    (leaksOnly_onHost hresolve).bind fun c => (leaksOnly_onHost (hlog c)).bind (hcommand c)
  rw [← hks]
  cases hcommand : a.command with
  | parse source =>
      refine hbegin fun c log => ?_
      rw [hcommand]
      have hmessage := leaksOnly_readMessage hdisk input source
      exact (leaksOnly_onHost hmessage).bind (leaksOnly_listInstructions c)
  | preview source context only =>
      have hhome : .home ∈ ks := by simp [hks, hcommand, Command.leaks, Command.ownLeaks]
      have hrevision : .revision ∈ ks := by simp [hks, hcommand, Command.leaks, Command.ownLeaks]
      refine hbegin fun c log => ?_
      rw [hcommand]
      exact leaksOnly_previewChanges service hdisk hhome hrevision input c source context only
  | apply source only given =>
      have hhome : .home ∈ ks := by simp [hks, hcommand, Command.leaks, Command.ownLeaks]
      have hrevision : .revision ∈ ks := by simp [hks, hcommand, Command.leaks, Command.ownLeaks]
      have htemplate : .template ∈ ks := by simp [hks, hcommand, Command.leaks, Command.ownLeaks]
      have hnesting : .nesting ∈ ks := by simp [hks, hcommand, Command.leaks, Command.ownLeaks]
      have hprepare := leaksOnly_prepare service hdisk hhome hrevision input source only given hresolve
        hlog
      rw [perform_apply service input hcommand]
      refine hprepare.bind fun found => ?_
      cases found with
      | none => exact leaksOnly_pure _
      | some p => exact fun k e he =>
          (halts_of_apply he).among service hdisk hrevision htemplate hnesting
  | history clears limit showsChanges =>
      have hnesting : .nesting ∈ ks := by
        cases clears <;> simp [hks, hcommand, Command.leaks, Command.ownLeaks]
      have htimes : clears = false → .times ∈ ks := by
        rintro rfl
        simp [hks, hcommand, Command.leaks, Command.ownLeaks]
      refine hbegin fun c log => ?_
      rw [hcommand]
      exact leaksOnly_showHistory hdisk hnesting c htimes limit showsChanges

/-- Carrying out what was asked for ends as reporting on it does: with a report, unless there is a failure
that is not reported. -/
theorem result_run (service : Hosting ρ) (input : Bytes) (a : Arguments) (w : World ρ) :
    (∃ report, (a.run service input w).result = .ok report ∧
      ∀ e, report.ending = .failed e → e.isReported = true) ∨
    ∃ e, (a.run service input w).result = .error e ∧ e.isReported = false ∧
      (a.perform service input (.start w)).result = .error e := by
  rw [Arguments.run]
  dsimp only [Console.start]
  split
  · refine .inl ⟨_, rfl, ?_⟩
    rintro _ ⟨⟩
  · rename_i e hfailed
    cases he : e.isReported with
    | true =>
        refine .inl ⟨_, rfl, ?_⟩
        rintro _ ⟨⟩
        exact he
    | false => exact .inr ⟨e, rfl, he, hfailed⟩

/-- **How a run ends.** Whatever the arguments, the configuration, the message and the world, a run ends
with the code 0, 1 or 2, and if that is since it failed, the failure is one to report; or else it meets a
failure that is not reported, of a kind that its command leaks. -/
theorem run_ends (service : Hosting ρ) (input : Bytes) (args : List Text) (w : World ρ) :
    (∃ report, (run service input args w).result = .ok report ∧
      report.ending.code.number ∈ [0, 1, 2] ∧
      ∀ e, report.ending = .failed e → e.isReported = true) ∨
    ∃ a e k, Request.ofList args = .ok (.run a) ∧ (run service input args w).result = .error e ∧
      e.leak? = some k ∧ k ∈ a.command.leaks := by
  have hcode : ∀ ending : Ending, ending.code.number ∈ [0, 1, 2] := by
    intro ending
    cases ending.code <;> decide
  unfold run
  cases hargs : Request.ofList args with
  | error e => exact .inl ⟨_, rfl, hcode _, nofun⟩
  | ok request =>
      cases request with
      | help program => exact .inl ⟨_, rfl, hcode _, nofun⟩
      | run a =>
          rcases result_run service input a w with
            ⟨report, hok, hreported⟩ | ⟨e, herror, hother, hmet⟩
          · exact .inl ⟨report, hok, hcode _, hreported⟩
          · have hkind : e.leak? ≠ none := by
              rw [Ne, Failure.leak?_eq_none_iff, hother]
              exact Bool.false_ne_true
            obtain ⟨k, hk⟩ := Option.ne_none_iff_exists'.mp hkind
            exact .inr ⟨a, e, k, rfl, herror, hk, leaksOnly_perform service input a _ e hmet k hk⟩

/-! ## Runs that do not end with a code -/

/-- A template for the messages of changes that asks for something that there is not. -/
def oddTemplate : Text := "\x7bname\x7d".toList

/-- The sample world with a configuration file that sets the template. -/
def oddWorld : World Unit :=
  sampleWorld.withDisk (sampleWorld.host.disk.put ["w".toList, Config.standardFile]
    (.file (Utf8.encode ("patchflow:\n  commit_message: '".toList ++ oddTemplate ++ "'\n".toList))))

/-- **Not every failure has a code**: none is answered where the message is a directory, and none where the
configured template, which is accepted, cannot be filled. -/
theorem run_escapes :
    (∃ e, (run Program.offline [] ["parse".toList, ".".toList] sampleWorld).result = .error e ∧
      e.leak? = some .disk) ∧
    (∃ c, (Config.loadOrDefault none oddWorld.host).result = .ok c ∧ c.commitMessage = oddTemplate) ∧
    ∃ e, (run Program.offline (Utf8.encode sampleMessage) (sampleCall [] []) oddWorld).result =
        .error e ∧ e.leak? = some .template :=
  ⟨exists_of_error (by decide +kernel), exists_of_answer (by decide +kernel),
    exists_of_error (by decide +kernel)⟩

end Cli

end Emend
