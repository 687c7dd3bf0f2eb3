import Emend.Proofs.Batch.Coherence
import Emend.Proofs.Batch.Commit
import Emend.Proofs.Config.Message

/-!
# Running a message again

A message whose instructions are all on whole files says for each of its files what is to be there, and
applied to that it says the same. So over a store that is like a map and does not fail, a second run leaves
everything as the first run left it, and skips every change whose file is looked at first, which is every
one that does not only create.
-/

namespace Emend

/-- The texts of the files once the instructions have been applied to the texts `F`, file by file. -/
def Merger.outcome (m : Merger) (is : List Instruction) (F : Text → Option Text) (p : Text) :
    Option Text :=
  (m.applyAll (is.filter (·.path = p)) (F p)).content

/-- Files without an instruction keep their texts. -/
theorem Merger.outcome_of_not_mem {m : Merger} {is : List Instruction} {F : Text → Option Text}
    {p : Text} (hp : p ∉ is.map (·.path)) : m.outcome is F p = F p := by
  have hnone : is.filter (·.path = p) = [] := by
    refine List.filter_eq_nil_iff.mpr fun i hi hpath => hp ?_
    exact of_decide_eq_true hpath ▸ List.mem_map_of_mem hi
  rw [outcome, hnone]
  rfl

/-- Instructions on whole files ask for the same once they have been applied. -/
theorem Merger.outcome_outcome {m : Merger} {is : List Instruction}
    (hwhole : ∀ i ∈ is, i.operation.requiresAnchor = false)
    (hsupported : ∀ i ∈ is, m.unsupported.contains i.operation = false) (F : Text → Option Text) :
    m.outcome is (m.outcome is F) = m.outcome is F := by
  funext p
  exact content_applyAll_applyAll (fun i hi => hwhole i (List.mem_filter.mp hi).1)
    (fun i hi => hsupported i (List.mem_filter.mp hi).1) (F p)

/-- The change only creates its file, which is not looked at then. -/
def Change.Creates (c : Change) : Prop := ∀ i ∈ c.instructions, i.operation = .create

instance (c : Change) : Decidable c.Creates :=
  inferInstanceAs (Decidable (∀ i ∈ c.instructions, i.operation = .create))

/-- The file of the change is looked at first, and has the text already that is to be there. -/
def Change.IsIdle (m : Merger) (F : Text → Option Text) (c : Change) : Prop :=
  ¬ c.Creates ∧ (m.applyAll c.instructions (F c.path)).content = F c.path

instance (m : Merger) (F : Text → Option Text) (c : Change) : Decidable (c.IsIdle m F) :=
  inferInstanceAs (Decidable (_ ∧ _))

/-- Only its path and its instructions count. -/
theorem Change.isIdle_congr {m : Merger} {F : Text → Option Text} {c c' : Change}
    (h : (c'.path, c'.instructions) = (c.path, c.instructions)) : c'.IsIdle m F ↔ c.IsIdle m F := by
  obtain ⟨hpath, hinstructions⟩ := Prod.mk.inj h
  unfold IsIdle Creates
  rw [hpath, hinstructions]

namespace Session

open Act

variable {σ : Type} {s : Session σ} {inv : σ → Prop} {files : σ → Text → Option Text}

/-! ## One change -/

/-- Of instructions that went well the change is skipped if they leave the text that it has. -/
theorem status_merged {c : Change} {r : MergeResult} (hstatus : c.status = .pending)
    (hexisted : c.existed = c.before.isSome) (hok : r.failure = none)
    (hdeleted : r.deleted = r.content.isNone) :
    (merged c r).status = if r.content = c.before then .skipped else .pending := by
  unfold merged
  rw [hok]
  dsimp only
  cases hbefore : c.before with
  | none =>
      rw [hbefore] at hexisted
      cases hcontent : r.content with
      | none => simp [hdeleted, hcontent, hexisted, Change.stopped, Problem.status]
      | some text => simp [hdeleted, hcontent, hexisted, hstatus]
  | some old =>
      rw [hbefore] at hexisted
      cases hcontent : r.content with
      | none => simp [hdeleted, hcontent, hexisted, hstatus]
      | some text =>
          by_cases hsame : text = old
          · simp [hdeleted, hcontent, hexisted, hsame, Change.stopped, Problem.status]
          · simp [hdeleted, hcontent, hexisted, hsame, hstatus]

/-- Of a file that was looked at the change has the text that it has. -/
theorem content_eq_iff_isIdle {m : Merger} {F : Text → Option Text} {c : Change} (hcreates : ¬ c.Creates)
    (hbefore : c.before = F c.path) :
    (m.applyAll c.instructions c.before).content = c.before ↔ c.IsIdle m F := by
  rw [hbefore]
  exact (and_iff_right hcreates).symm

/-- Of a file that was not looked at the change has no text, and one is to be there. -/
theorem content_eq_iff_isIdle_of_creates {m : Merger} {F : Text → Option Text} {c : Change}
    (hne : c.instructions ≠ []) (hcreates : c.Creates) (hbefore : c.before = none)
    (hok : (m.applyAll c.instructions c.before).failure = none) :
    (m.applyAll c.instructions c.before).content = c.before ↔ c.IsIdle m F := by
  have hdeleted := Merger.deleted_applyAll hne hok
  rw [Merger.deleted_applyAll_of_creates hcreates] at hdeleted
  constructor
  · intro hsame
    rw [hsame, hbefore] at hdeleted
    cases hdeleted
  · intro hidle
    exact absurd hcreates hidle.1

/-- A commit that keeps from failing skips what was idle and makes the rest. -/
theorem status_of_advances {c c' : Change} {idle : Prop} [Decidable idle]
    (hc : c.status = if idle then .skipped else .pending) (h : c.Advances c')
    (hgood : c'.status = .success ∨ c'.status = .skipped) :
    c'.status = if idle then .skipped else .success := by
  by_cases hidle : idle
  · rw [if_pos hidle] at hc ⊢
    rw [h.eq_of_settled (by rw [hc]; decide)]
    exact hc
  · rw [if_neg hidle] at hc ⊢
    cases h with
    | kept =>
        rw [hc] at hgood
        rcases hgood with hgood | hgood <;> cases hgood
    | made => rfl
    | refused => rcases hgood with hgood | hgood <;> cases hgood

/-- The store is in use, its files have the texts `F`, and no call has failed. -/
def Holds (inv : σ → Prop) (files : σ → Text → Option Text) (F : Text → Option Text)
    (st : σ × List Call) : Prop :=
  Sound inv (fun _ _ => False) st ∧ files st.1 = F

/-- Applying instructions on the whole file to what is known of it. -/
theorem ensures_merge_idle (hquiet : s.IsQuiet inv files) {F : Text → Option Text} {c : Change}
    (hne : c.instructions ≠ []) (hwhole : ∀ i ∈ c.instructions, i.operation.requiresAnchor = false)
    (hstatus : c.status = .pending) (hexisted : c.existed = c.before.isSome)
    (hidle : (s.merger.applyAll c.instructions c.before).content = c.before ↔ c.IsIdle s.merger F)
    {st : σ × List Call} (h : Holds inv files F st) :
    (s.watched.merge c).Ensures st fun c' st' => Holds inv files F st' ∧
      (c'.path, c'.instructions) = (c.path, c.instructions) ∧
      c'.status = if c'.IsIdle s.merger F then .skipped else .pending := by
  refine (gives_note hquiet _ h.1).ensures.bind ?_
  rintro - st' ⟨hsound, hfiles, -⟩
  refine ensures_pure ⟨⟨hsound, hfiles.trans h.2⟩, ?_⟩
  have hok := Merger.failure_applyAll_of_whole (m := s.merger) hwhole (fun _ _ => rfl) c.before
  obtain ⟨hpath, hinstructions, -⟩ := merged_keeps c (s.merger.applyAll c.instructions c.before)
  have hsame := congrArg₂ Prod.mk hpath hinstructions
  refine ⟨hsame, ?_⟩
  rw [watched_merger, if_congr (Change.isIdle_congr hsame) rfl rfl, ← if_congr hidle rfl rfl]
  exact status_merged hstatus hexisted hok (Merger.deleted_applyAll hne hok)

/-- **One file is prepared**: its change is skipped if it is idle, and else it is still to be made. -/
theorem ensures_prepareFile_idle (hstore : s.store.MapLike inv files fun _ _ => False)
    (hquiet : s.IsQuiet inv files) (ref : Option Text) {g : Text × List Instruction} (hne : g.2 ≠ [])
    (hwhole : ∀ i ∈ g.2, i.operation.requiresAnchor = false) {F : Text → Option Text}
    {st : σ × List Call} (h : Holds inv files F st) :
    (s.watched.prepareFile ref g.1 g.2).Ensures st fun c st' => Holds inv files F st' ∧
      (c.path, c.instructions) = g ∧
      c.status = if c.IsIdle s.merger F then .skipped else .pending := by
  unfold prepareFile
  dsimp only
  split
  · rename_i hcreate
    have his : ∀ i ∈ g.2, i.operation = .create := fun i hi =>
      of_decide_eq_true (List.all_eq_true.mp hcreate i hi)
    have hok := Merger.failure_applyAll_of_whole (m := s.merger) hwhole (fun _ _ => rfl) none
    exact ensures_merge_idle hquiet (c := { path := g.1, instructions := g.2 }) hne hwhole rfl rfl
      (content_eq_iff_isIdle_of_creates hne his rfl hok) h
  · rename_i hcreate
    have hcreates : ¬ ∀ i ∈ g.2, i.operation = .create := fun his =>
      hcreate (List.all_eq_true.mpr fun i hi => decide_eq_true (his i hi))
    refine (gives_fetch hstore g.1 ref h.1).ensures.bind ?_
    rintro answer st₁ ⟨hsound, hfiles, -, hanswer⟩
    have hholds : Holds inv files F st₁ := ⟨hsound, hfiles.trans h.2⟩
    cases answer with
    | error e =>
        -- a call that failed is one that can fail, and there is none
        obtain ⟨call, hcall, -, hfailed⟩ := hanswer
        exact (hsound.calls call hcall hfailed).elim
    | ok found =>
        obtain ⟨rfl, -⟩ := hanswer
        rw [hholds.2]
        cases hnow : F g.1 with
        | none =>
            exact ensures_merge_idle hquiet (c := { path := g.1, instructions := g.2 }) hne hwhole
              rfl rfl (content_eq_iff_isIdle hcreates hnow.symm) hholds
        | some text =>
            let c : Change :=
              { path := g.1, instructions := g.2, existed := true, before := some text,
                token := some (tokenOf text) }
            exact ensures_merge_idle hquiet (c := c) hne hwhole rfl rfl
              (content_eq_iff_isIdle hcreates hnow.symm) hholds

/-- Where no call failed, instructions on whole files have left of each file what they ask for. -/
theorem made_of_committed {m : Merger} {is : List Instruction} {before after : Text → Option Text}
    {st : σ × List Call} {g : Text × List Instruction} {c : Change}
    (hwhole : ∀ i ∈ is, i.operation.requiresAnchor = false)
    (hsupported : ∀ i ∈ is, m.unsupported.contains i.operation = false)
    (hsound : Sound inv (fun _ _ => False) st) (hg : g ∈ Instruction.groupByPath is)
    (h : Committed m before after st.2 g c) :
    after g.1 = m.outcome is before g.1 ∧ (c.status = .success ∨ c.status = .skipped) := by
  have hgroup := Instruction.snd_of_mem_groupByPath hg
  have hsub : ∀ i ∈ g.2, i ∈ is := fun i hi => (List.mem_filter.mp (hgroup ▸ hi)).1
  unfold Merger.outcome
  rw [← hgroup]
  refine h.fate.made ?_
  rintro (⟨call, hcall, -, hfailed⟩ | hfailure)
  · exact hsound.calls call hcall hfailed
  · rw [Merger.failure_applyAll_of_whole (fun i hi => hwhole i (hsub i hi))
      fun i hi => hsupported i (hsub i hi)] at hfailure
    cases hfailure

/-! ## One run -/

/-- What a run of a message on whole files comes to, where nothing fails: `F` are the texts of the files
before it, `F'` those after it. -/
structure Ran (s : Session σ) (message : Text) (F F' : Text → Option Text) (b : Batch) : Prop where
  files : F' = s.merger.outcome (Message.parse s.config.fileTag message).instructions F
  errors : b.errors = (Message.parse s.config.fileTag message).errors
  groups : b.changes.map (fun c => (c.path, c.instructions)) =
    Instruction.groupByPath (Message.parse s.config.fileTag message).instructions
  statuses : ∀ c ∈ b.changes, c.status = if c.IsIdle s.merger F then .skipped else .success

section

variable {message : Text} (hstore : s.store.MapLike inv files fun _ _ => False)
  (hquiet : s.IsQuiet inv files)
  (hwhole : ∀ i ∈ (Message.parse s.config.fileTag message).instructions,
    i.operation.requiresAnchor = false)
include hstore hquiet hwhole

theorem ensures_prepare_idle (ref : Option Text) {st : σ} (hst : inv st) :
    (s.watched.prepare message ref none).Ensures (st, []) fun b _ =>
      b.errors = (Message.parse s.config.fileTag message).errors ∧
      b.changes.map (fun c => (c.path, c.instructions)) =
        Instruction.groupByPath (Message.parse s.config.fileTag message).instructions ∧
      ∀ c ∈ b.changes, c.status = if c.IsIdle s.merger (files st) then .skipped else .pending := by
  have hholds : Holds inv files (files st) (st, []) :=
    ⟨⟨hst, fun c hc => absurd hc List.not_mem_nil⟩, rfl⟩
  have hnote : ∀ ns st', Holds inv files (files st) st' →
      (s.watched.note ns).Ensures st' fun _ st'' => Holds inv files (files st) st'' :=
    fun ns st' h => ((gives_note hquiet ns h.1).mono fun _ _ ⟨hsound, hfiles, _⟩ =>
      ⟨hsound, hfiles.trans h.2⟩).ensures
  have hfile : ∀ g ∈ Instruction.groupByPath (Message.parse s.config.fileTag message).instructions,
      ∀ st', Holds inv files (files st) st' →
      (s.watched.prepareFile (s.activeRef ref) g.1 g.2).Ensures st' fun c st'' =>
        Holds inv files (files st) st'' ∧ (c.path, c.instructions) = g ∧
          c.status = if c.IsIdle s.merger (files st) then .skipped else .pending := by
    intro g hg st' h
    refine ensures_prepareFile_idle hstore hquiet _ (Instruction.ne_nil_of_mem_groupByPath hg) ?_ h
    intro i hi
    rw [Instruction.snd_of_mem_groupByPath hg] at hi
    exact hwhole i (List.mem_filter.mp hi).1
  refine ensures_prepare_batch _ _ hholds hnote fun st₁ h₁ => ?_
  refine (ensures_prepareFiles _ _ hnote hfile h₁).mono ?_
  rintro cs st' ⟨-, hgroups, hall⟩
  exact ⟨rfl, hgroups, hall⟩

/-- **What a run comes to** where nothing can fail: the files have the texts that the instructions ask
for, and of the changes those are skipped that were idle. -/
theorem gives_run_whole (hmessage : s.config.commitMessage = Config.defaultMessage) (ref : Option Text)
    {st : σ} (hst : inv st) :
    (s.run message ref false).Gives st fun b st' =>
      inv st' ∧ s.Ran message (files st) (files st') b := by
  have hformat : ∀ i ∈ (Message.parse s.config.fileTag message).instructions,
      ∃ m, s.config.messageFor i.path i.operation = .ok m := fun i _ =>
    ⟨_, Config.messageFor_default hmessage i.path i.operation⟩
  have hrun : (s.watched.run message ref false).Gives (st, []) fun b st' =>
      inv st'.1 ∧ s.Ran message (files st) (files st'.1) b := by
    -- while it is prepared, nothing is written, so all is seen as it was before the run
    refine ((gives_prepare hstore hquiet message ref hst).and_ensures
      (ensures_prepare_idle hstore hquiet hwhole ref hst)).bind ?_
    rintro b st₁ ⟨⟨hsound, hfiles, hframe, hprepared⟩, herrors, hgroups, hidle⟩
    refine ((gives_commit hstore hquiet ref hsound hformat hfiles hprepared).and
      (s.gives_commit_page b ref st₁)).bind ?_
    rintro ⟨b', failure⟩ st₂ ⟨⟨rfl, hsound', hframe', hall⟩, page, hpage, -, hrows, -⟩
    obtain ⟨rfl, -⟩ := Prod.mk.inj hpage
    -- the fates tell of the files, the rows of the page how each change got its status
    have hadvances : List.Forall₂ Change.Advances b.changes page.changes :=
      List.forall₂_map_right_iff.mpr (hrows.imp fun _ _ h => h.advances)
    refine gives_pure ⟨hsound'.state, ?_, herrors, ?_, ?_⟩
    · funext p
      by_cases hp : p ∈ (Message.parse s.config.fileTag message).instructions.map (·.path)
      · have hg := List.mem_map_of_mem (f := fun p => (p, List.filter (·.path = p)
          (Message.parse s.config.fileTag message).instructions)) (Instruction.mem_paths.mpr hp)
        obtain ⟨c, -, hcommitted⟩ := exists_mem_of_forall₂ hall hg
        exact (made_of_committed hwhole (fun _ _ => rfl) hsound' hg hcommitted).1
      · rw [Merger.outcome_of_not_mem hp]
        exact (hframe.trans hframe').files p fun hmem => hp (Instruction.mem_paths.mp hmem)
    · exact (Batch.groups_of_advances hadvances).trans hgroups
    · intro c' hc'
      obtain ⟨c, hc, hadvance⟩ := exists_mem_of_forall₂ hadvances.flip hc'
      obtain ⟨g, hg, hcommitted⟩ := exists_mem_of_forall₂ hall.flip hc'
      rw [if_congr (Change.isIdle_congr hadvance.same) rfl rfl]
      exact status_of_advances (hidle c hc) hadvance
        (made_of_committed hwhole (fun _ _ => rfl) hsound' hg hcommitted).2
  obtain ⟨b, hresult, hpost⟩ := hrun
  obtain ⟨hunder, hstate, -⟩ := s.under_run message ref false st []
  exact ⟨b, hunder ▸ hresult, hstate ▸ hpost⟩

end

/-! ## The second run -/

/-- Where the instructions leave every text as it is, the change of a group is idle unless it creates. -/
theorem isIdle_iff_of_outcome {m : Merger} {is : List Instruction} {F : Text → Option Text} {c : Change}
    (hfixed : m.outcome is F = F) (hc : (c.path, c.instructions) ∈ Instruction.groupByPath is) :
    c.IsIdle m F ↔ ¬ c.Creates := by
  have hgroup : c.instructions = is.filter (·.path = c.path) := Instruction.snd_of_mem_groupByPath hc
  have hsame : (m.applyAll c.instructions (F c.path)).content = F c.path := by
    rw [hgroup]
    exact congrFun hfixed c.path
  exact and_iff_left hsame

/-- **A message on whole files can be run again.** The second run, from where the first has ended, leaves
every file as it is, reports the same errors of the message and no failed change, and skips every change
that does not only create. -/
theorem run_twice (s : Session σ) (hstore : s.store.MapLike inv files fun _ _ => False)
    (hquiet : s.IsQuiet inv files) (hmessage : s.config.commitMessage = Config.defaultMessage)
    (message : Text) (ref : Option Text) (st : σ) (hst : inv st)
    (hwhole : ∀ i ∈ (Message.parse s.config.fileTag message).instructions,
      i.operation = .create ∨ i.operation = .replace ∨ i.operation = .deleteFile) :
    let st₁ := (s.run message ref false st).state
    ∃ b₁ b₂, (s.run message ref false st).result = .ok b₁ ∧
      (s.run message ref false st₁).result = .ok b₂ ∧
      files (s.run message ref false st₁).state = files st₁ ∧
      b₂.errors = b₁.errors ∧ b₂.failed = [] ∧
      b₂.changes.map (fun c => (c.path, c.instructions)) =
        Instruction.groupByPath (Message.parse s.config.fileTag message).instructions ∧
      ∀ c ∈ b₂.changes, c.status =
        if ∀ i ∈ c.instructions, i.operation = .create then .success else .skipped := by
  intro st₁
  have hwhole : ∀ i ∈ (Message.parse s.config.fileTag message).instructions,
      i.operation.requiresAnchor = false := by
    intro i hi
    rcases hwhole i hi with hop | hop | hop <;> rw [hop] <;> rfl
  obtain ⟨b₁, hresult₁, hinv, hran₁⟩ := gives_run_whole hstore hquiet hwhole hmessage ref hst
  obtain ⟨b₂, hresult₂, -, hran₂⟩ := gives_run_whole hstore hquiet hwhole hmessage ref hinv
  -- what the first run has left is what the instructions make of it
  have hfixed : s.merger.outcome (Message.parse s.config.fileTag message).instructions (files st₁) =
      files st₁ := by
    rw [hran₁.files, Merger.outcome_outcome hwhole fun _ _ => rfl]
  have hall : ∀ c ∈ b₂.changes, c.status =
      if ∀ i ∈ c.instructions, i.operation = .create then .success else .skipped := by
    intro c hc
    have hgroup := List.mem_map_of_mem (f := fun c : Change => (c.path, c.instructions)) hc
    rw [hran₂.groups] at hgroup
    rw [hran₂.statuses c hc, if_congr (isIdle_iff_of_outcome hfixed hgroup) rfl rfl, ite_not]
    rfl
  refine ⟨b₁, b₂, hresult₁, hresult₂, hran₂.files.trans hfixed, hran₂.errors.trans hran₁.errors.symm,
    ?_, hran₂.groups, hall⟩
  refine List.filter_eq_nil_iff.mpr fun c hc => ?_
  rw [hall c hc]
  split <;> decide

end Session

/-- The memory without outages does not fail. -/
theorem Memory.mapLike_store_reliable :
    Memory.store.MapLike (·.outages = []) Memory.get? fun _ _ => False := by
  have hnone : (fun method path => (method, path) ∈ ([] : List (StoreMethod × Text)) ∨
      (method, ['*']) ∈ ([] : List (StoreMethod × Text))) = fun _ _ => False := by
    simp
  exact hnone ▸ Memory.mapLike_store []

/-- Deletes a file and writes it anew, and creates another. -/
def sampleRewrite : Text :=
  "[FILE] a\n[DELETE_FILE]\n[FILE] b\n[CREATE]2[/CREATE]\n[FILE] a\n[REPLACE]1[/REPLACE]".toList

/-- The second run skips the file that was deleted and written, and creates the other once more. -/
theorem Session.run_twice_sample :
    let s : Session Memory := { store := Memory.store }
    let st : Memory := { files := [("a".toList, "0".toList)] }
    let st₁ := (s.run sampleRewrite none false st).state
    ∃ b₁ b₂, (s.run sampleRewrite none false st).result = .ok b₁ ∧
      (s.run sampleRewrite none false st₁).result = .ok b₂ ∧
      (s.run sampleRewrite none false st₁).state.get? = st₁.get? ∧
      b₂.errors = b₁.errors ∧ b₂.failed = [] ∧
      b₂.changes.map (fun c => (c.path, c.status)) =
        [("a".toList, .skipped), ("b".toList, .success)] := by
  intro s st st₁
  obtain ⟨b₁, b₂, hresult₁, hresult₂, hfiles, herrors, hfailed, hgroups, hstatus⟩ :=
    s.run_twice Memory.mapLike_store_reliable (fun _ h => nomatch h) rfl sampleRewrite none st rfl
      (by decide +kernel)
  refine ⟨b₁, b₂, hresult₁, hresult₂, hfiles, herrors, hfailed, ?_⟩
  have hstatuses : b₂.changes.map (fun c => (c.path, c.status)) =
      (b₂.changes.map fun c => (c.path, c.instructions)).map fun g =>
        (g.1, if ∀ i ∈ g.2, i.operation = .create then ChangeStatus.success else .skipped) := by
    rw [List.map_map]
    exact List.map_congr_left fun c hc => Prod.ext rfl (hstatus c hc)
  rw [hstatuses, hgroups]
  decide +kernel

end Emend
