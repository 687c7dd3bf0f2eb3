import Emend.Proofs.Batch.Frame
import Emend.Proofs.Batch.Ready

/-!
# What a prepared change is to come to

Seen from one file, what a session is to do depends on the text that the file has, on what the file's
instructions make of that text, and on whether a call for the file has failed. `Prospect` says in which
of four ways a change stands to these, and preparing a message gives a change with a prospect for each of
its files while every file keeps its text.
-/

namespace Emend

/-- How a change stands to its file: `r` is what its instructions make of the text `now` that the file
has, and `hasFailed` says that a call for the file failed. -/
inductive Prospect (r : MergeResult) (now : Option Text) (hasFailed : Prop) (c : Change) : Prop
  /-- The file is left alone, since something failed. -/
  | stopped (why : hasFailed ∨ r.failure.isSome) (status : c.status.isFailure)
  /-- The file is left alone, since it is already as it is to be. -/
  | settled (calls : ¬ hasFailed) (merged : r.failure = none) (content : now = r.content)
      (status : c.status = .skipped)
  /-- The file is to be deleted. -/
  | deletion (calls : ¬ hasFailed) (merged : r.failure = none) (content : r.content = none)
      (status : c.status = .pending) (isDeletion : c.isDeletion = true)
      (token : c.token = now.map tokenOf)
  /-- The file is to be written. -/
  | writing (text : Text) (calls : ¬ hasFailed) (merged : r.failure = none)
      (content : r.content = some text) (after : c.after = some text) (status : c.status = .pending)
      (isDeletion : c.isDeletion = false) (token : c.token = none ∨ c.token = now.map tokenOf)

/-- A prospect depends on the failing of calls for its file only. -/
theorem Prospect.congr {r : MergeResult} {now : Option Text} {hasFailed hasFailed' : Prop} {c : Change}
    (h : Prospect r now hasFailed c) (hiff : hasFailed' ↔ hasFailed) : Prospect r now hasFailed' c :=
  propext hiff ▸ h

namespace Session

open Act

/-! ## One file -/

theorem isFailure_notMerged (step : FailedStep) : (Problem.notMerged step).status.isFailure = true := by
  rw [Problem.status]
  split <;> rfl

/-- A change whose instructions have been applied has a prospect. A file that was not found, or not
looked for, must not be one that the instructions delete. -/
theorem prospect_merged {c : Change} {r : MergeResult} {now : Option Text} {hasFailed : Prop}
    (hcalls : ¬ hasFailed) (hr : r.failure = none → r.deleted = r.content.isNone)
    (hstatus : c.status = .pending) (hdeletion : c.isDeletion = false)
    (hfile : c.existed = false ∧ c.token = none ∧ (r.deleted = true → now = none) ∨
      c.existed = true ∧ c.before = now ∧ c.token = now.map tokenOf) :
    Prospect r now hasFailed (merged c r) := by
  rw [merged]
  cases hfailure : r.failure with
  | some step => exact .stopped (.inr (by rw [hfailure]; rfl)) (isFailure_notMerged step)
  | none =>
      dsimp only
      cases hcontent : r.content with
      | none =>
          have hdeleted : r.deleted = true := by rw [hr hfailure, hcontent]; rfl
          rw [if_pos hdeleted]
          rcases hfile with ⟨hexisted, -, hnow⟩ | ⟨hexisted, -, htoken⟩
          · rw [if_neg (by rw [hexisted]; exact Bool.false_ne_true)]
            exact .settled hcalls hfailure ((hnow hdeleted).trans hcontent.symm) rfl
          · rw [if_pos hexisted]
            exact .deletion hcalls hfailure hcontent hstatus rfl htoken
      | some text =>
          have hdeleted : ¬ r.deleted = true := by
            rw [hr hfailure, hcontent]
            exact Bool.false_ne_true
          rw [if_neg hdeleted]
          by_cases hsame : c.existed = true ∧ some text = c.before
          · rw [if_pos hsame]
            rcases hfile with ⟨hexisted, -, -⟩ | ⟨-, hbefore, -⟩
            · rw [hexisted] at hsame
              cases hsame.1
            · exact .settled hcalls hfailure (by rw [hcontent, hsame.2, hbefore]) rfl
          · rw [if_neg hsame]
            refine .writing text hcalls hfailure hcontent rfl hstatus hdeletion ?_
            rcases hfile with ⟨-, htoken, -⟩ | ⟨-, -, htoken⟩
            · exact .inl htoken
            · exact .inr htoken

variable {σ : Type} {s : Session σ} {inv : σ → Prop} {files : σ → Text → Option Text}
  {out : StoreMethod → Text → Prop}

/-- The change that is made of a file's instructions has a prospect for the text `F` has for the file. -/
structure Prepared (m : Merger) (F : Text → Option Text) (calls : List Call)
    (g : Text × List Instruction) (c : Change) : Prop where
  path : c.path = g.1
  instructions : c.instructions = g.2
  prospect : Prospect (m.applyAll g.2 (F g.1)) (F g.1) (FailedAt calls g.1) c

/-- Applying the instructions of a change prepares it, if they make of the text that it has what they
make of its file's. -/
theorem gives_merge (hquiet : s.IsQuiet inv files) {c : Change} (hne : c.instructions ≠ [])
    {st : σ × List Call} (h : Sound inv out st) (hcalls : ¬ FailedAt st.2 c.path)
    (hstatus : c.status = .pending) (hdeletion : c.isDeletion = false)
    (hbase : s.merger.applyAll c.instructions c.before =
      s.merger.applyAll c.instructions (files st.1 c.path))
    (hfile : c.existed = false ∧ c.token = none ∧
        ((s.merger.applyAll c.instructions c.before).deleted = true → files st.1 c.path = none) ∨
      c.existed = true ∧ c.before = files st.1 c.path ∧ c.token = (files st.1 c.path).map tokenOf) :
    (s.watched.merge c).Gives st fun c' st' =>
      Sound inv out st' ∧ files st'.1 = files st.1 ∧ st'.2 = st.2 ∧
        Prepared s.merger (files st.1) st'.2 (c.path, c.instructions) c' := by
  refine (gives_note hquiet _ h).bind fun _ st' ⟨hsound, hfiles, hcalls'⟩ => gives_pure ?_
  refine ⟨hsound, hfiles, hcalls', (merged_keeps c _).1, (merged_keeps c _).2.1, ?_⟩
  rw [hcalls', ← hbase]
  exact prospect_merged hcalls (Merger.deleted_applyAll hne) hstatus hdeletion hfile

/-- Instructions that only create a file leave the same whatever the file was. -/
theorem applyAll_merger_of_creates (s : Session σ) {is : List Instruction} (hne : is ≠ [])
    (his : ∀ i ∈ is, i.operation = .create) (t : Option Text) :
    s.merger.applyAll is none = s.merger.applyAll is t := by
  cases is with
  | nil => exact absurd rfl hne
  | cons i is =>
      have hop : i.operation.requiresAnchor = false := by
        rw [his i List.mem_cons_self]
        rfl
      exact Merger.applyAll_of_not_requiresAnchor hop rfl none t

/-- A fetch changes no file, and its answer is the file's text unless it fails. -/
theorem gives_fetch (hstore : s.store.MapLike inv files out) (path : Text) (ref : Option Text)
    {st : σ × List Call} (h : Sound inv out st) :
    (s.watched.store.fetch path ref).attempt.Gives st fun answer st' =>
      Sound inv out st' ∧ files st'.1 = files st.1 ∧ Frame files [path] st st' ∧
        match answer with
        | .ok found => found = (files st'.1 path).map (fun t => ⟨t, tokenOf t⟩) ∧
            (FailedAt st'.2 path ↔ FailedAt st.2 path)
        | .error _ => FailedAt st'.2 path := by
  refine ((hstore.fetch st.1 path ref h.state).watched .fetch path st.2).mono ?_
  rintro answer ⟨st₁, calls⟩ ⟨⟨hinv, hfiles, hanswer⟩, hcall⟩
  dsimp only at hinv hfiles hcall
  subst hcall
  refine ⟨h.append hinv fun hfailed => ?_, hfiles, ?_, ?_⟩
  · cases answer with
    | ok found => cases hfailed
    | error e => exact hanswer
  · exact Frame.append (c := ⟨.fetch, path, answer.isOk⟩) fun p _ => congrFun hfiles p
  · cases answer with
    | ok found => exact ⟨hfiles ▸ hanswer, failedAt_append_answered rfl⟩
    | error e => exact failedAt_append_failed (c := ⟨.fetch, path, false⟩) rfl

/-- **One file is prepared** without a change to any file, and without a failed call for another. -/
theorem gives_prepareFile (hstore : s.store.MapLike inv files out) (hquiet : s.IsQuiet inv files)
    (ref : Option Text) (path : Text) {is : List Instruction} (hne : is ≠ []) {st : σ × List Call}
    (h : Sound inv out st) (hcalls : ¬ FailedAt st.2 path) :
    (s.watched.prepareFile ref path is).Gives st fun c st' =>
      Sound inv out st' ∧ files st'.1 = files st.1 ∧ Frame files [path] st st' ∧
        Prepared s.merger (files st.1) st'.2 (path, is) c := by
  rw [prepareFile]
  split
  · rename_i hcreate
    have his : ∀ i ∈ is, i.operation = .create := fun i hi =>
      of_decide_eq_true (List.all_eq_true.mp hcreate i hi)
    -- the file was not looked for: its text does not matter, and it is not deleted
    refine (gives_merge hquiet (c := { path, instructions := is }) hne h hcalls rfl rfl
      (applyAll_merger_of_creates s hne his _) (.inl ⟨rfl, rfl, fun hdeleted => ?_⟩)).mono ?_
    · rw [Merger.deleted_applyAll_of_creates his] at hdeleted
      cases hdeleted
    · rintro c st' ⟨hsound, hfiles, hcalls', hprepared⟩
      exact ⟨hsound, hfiles, .of_eq hfiles hcalls', hprepared⟩
  · refine (gives_fetch hstore path ref h).bind ?_
    rintro answer st₁ ⟨hsound, hfiles, hframe, hanswer⟩
    cases answer with
    | error e => exact gives_pure ⟨hsound, hfiles, hframe, rfl, rfl, .stopped (.inl hanswer) rfl⟩
    | ok found =>
        obtain ⟨rfl, hiff⟩ := hanswer
        have hkeep : ∀ (c : Change) (st' : σ × List Call), (Sound inv out st' ∧
            files st'.1 = files st₁.1 ∧ st'.2 = st₁.2 ∧
              Prepared s.merger (files st₁.1) st'.2 (path, is) c) →
            Sound inv out st' ∧ files st'.1 = files st.1 ∧ Frame files [path] st st' ∧
              Prepared s.merger (files st.1) st'.2 (path, is) c := by
          rintro c st' ⟨hsound', hfiles', hcalls', hprepared⟩
          exact ⟨hsound', hfiles'.trans hfiles, hframe.trans (.of_eq hfiles' hcalls'), hfiles ▸ hprepared⟩
        rw [← hiff] at hcalls
        cases hnow : files st₁.1 path with
        | none =>
            exact (gives_merge hquiet (c := { path, instructions := is }) hne hsound hcalls rfl rfl
              (by rw [hnow]) (.inl ⟨rfl, rfl, fun _ => hnow⟩)).mono hkeep
        | some text =>
            let c : Change :=
              { path, instructions := is, existed := true, before := some text,
                token := some (tokenOf text) }
            exact (gives_merge hquiet (c := c) hne hsound hcalls rfl rfl (by rw [hnow])
              (.inr ⟨rfl, hnow.symm, by rw [hnow]; rfl⟩)).mono hkeep

/-! ## Every file -/

/-- What is known of a change is not altered by calls for other files. -/
theorem Prepared.congr {m : Merger} {F : Text → Option Text} {calls calls' : List Call}
    {g : Text × List Instruction} {c : Change} (h : Prepared m F calls g c)
    (hiff : FailedAt calls' g.1 ↔ FailedAt calls g.1) : Prepared m F calls' g c :=
  ⟨h.path, h.instructions, h.prospect.congr hiff⟩

/-- **Files with different paths are prepared** one by one: none keeps another from it. -/
theorem gives_prepareFiles (hstore : s.store.MapLike inv files out) (hquiet : s.IsQuiet inv files)
    (ref : Option Text) {gs : List (Text × List Instruction)} (hne : ∀ g ∈ gs, g.2 ≠ [])
    (hnodup : (gs.map (·.1)).Nodup) {st : σ × List Call} (h : Sound inv out st)
    (hcalls : ∀ g ∈ gs, ¬ FailedAt st.2 g.1) :
    (s.watched.prepareFiles ref gs).Gives st fun cs st' =>
      Sound inv out st' ∧ files st'.1 = files st.1 ∧ Frame files (gs.map (·.1)) st st' ∧
        List.Forall₂ (Prepared s.merger (files st.1) st'.2) gs cs := by
  -- on the files: no text changes, and no call for a file fails before its turn
  induction gs generalizing st with
  | nil => exact gives_pure ⟨h, rfl, .refl _ _, .nil⟩
  | cons g gs ih =>
      obtain ⟨path, is⟩ := g
      rw [List.map_cons, List.nodup_cons] at hnodup
      obtain ⟨hnotin, hnodup⟩ := hnodup
      refine (gives_prepareFile hstore hquiet ref path (hne _ List.mem_cons_self) h
        (hcalls _ List.mem_cons_self)).bind ?_
      rintro c st₁ ⟨hsound₁, hfiles₁, hframe₁, hprepared⟩
      refine (gives_note hquiet _ hsound₁).bind ?_
      rintro - st₂ ⟨hsound₂, hfiles₂, hcalls₂⟩
      have hcallsTail : ∀ g ∈ gs, ¬ FailedAt st₂.2 g.1 := by
        intro g hg hfailed
        rw [hcalls₂, hframe₁.calls _ (Instruction.fst_not_mem_singleton hnotin hg)] at hfailed
        exact hcalls g (List.mem_cons_of_mem _ hg) hfailed
      refine (ih (fun g hg => hne g (List.mem_cons_of_mem _ hg)) hnodup hsound₂ hcallsTail).bind ?_
      rintro cs st' ⟨hsound', hfiles', hframe', hall⟩
      have hkept : files st₂.1 = files st.1 := hfiles₂.trans hfiles₁
      have hhead : Frame files [path] st st₂ := hframe₁.trans (.of_eq hfiles₂ hcalls₂)
      refine gives_pure ⟨hsound', hfiles'.trans hkept, hhead.cons hframe', .cons ?_ (hkept ▸ hall)⟩
      exact hprepared.congr (by rw [hframe'.calls path hnotin, hcalls₂])

/-- **Preparing a message** changes no file and gives a prepared change for each of its groups. -/
theorem gives_prepare (hstore : s.store.MapLike inv files out) (hquiet : s.IsQuiet inv files)
    (message : Text) (ref : Option Text) {st : σ} (h : inv st) :
    let is := (Message.parse s.config.fileTag message).instructions
    (s.watched.prepare message ref none).Gives (st, []) fun b st' =>
      Sound inv out st' ∧ files st'.1 = files st ∧ Frame files (Instruction.paths is) (st, []) st' ∧
        List.Forall₂ (Prepared s.merger (files st) st'.2) (Instruction.groupByPath is) b.changes := by
  intro is
  have hsound : Sound inv out (st, ([] : List Call)) := ⟨h, fun c hc => absurd hc List.not_mem_nil⟩
  refine (gives_note hquiet _ hsound).bind ?_
  rintro - st₁ ⟨hsound₁, hfiles₁, hcalls₁⟩
  refine (gives_note hquiet _ hsound₁).bind ?_
  rintro - st₂ ⟨hsound₂, hfiles₂, hcalls₂⟩
  have hkept : files st₂.1 = files st := hfiles₂.trans hfiles₁
  have hnone : st₂.2 = [] := hcalls₂.trans hcalls₁
  refine (gives_prepareFiles hstore hquiet _ (fun g => Instruction.ne_nil_of_mem_groupByPath)
    (Instruction.map_fst_groupByPath is ▸ Instruction.nodup_paths is) hsound₂
    fun g _ => hnone ▸ not_failedAt_nil _).bind ?_
  rintro cs st' ⟨hsound', hfiles', hframe, hall⟩
  refine gives_pure ⟨hsound', hfiles'.trans hkept, ?_, hkept ▸ hall⟩
  have hhead : Frame files (Instruction.paths is) (st, []) st₂ := .of_eq hkept hnone
  exact hhead.trans (Instruction.map_fst_groupByPath is ▸ hframe)

end Session

end Emend
