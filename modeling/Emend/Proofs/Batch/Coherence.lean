import Emend.Proofs.Batch.Ready
import Emend.Proofs.Batch.Rounds
import Emend.Proofs.Batch.Selection
import Emend.Store.Memory

/-!
# What holds of a batch at every stage

A change is coherent if its status, its texts and its problem go together, and a batch is if its changes
are, and if these deal with the selected instructions path by path. Preparing a message makes a coherent
batch, by whichever way out each file takes, and a change that advances in a commit stays coherent; so a
batch is coherent after any number of commits, whatever ended them.
-/

namespace Emend

open Act

variable {σ : Type}

/-! ## Problems -/

/-- The status of a problem says whether an anchor is what an instruction failed on. -/
theorem Problem.status_eq_anchorNotFound {p : Problem} :
    p.status = .anchorNotFound ↔
      p.mergeKind? = some .anchorNotFound ∨ p.mergeKind? = some .anchorAmbiguous := by
  cases p with
  | notMerged step =>
      rw [Problem.status, Problem.mergeKind?]
      cases step.error.kind <;> decide
  | notFetched | notStored | nothingToDelete | noChanges =>
      simp [Problem.status, Problem.mergeKind?]

theorem Text.joinWith_ne_nil {sep t : Text} (h : t ≠ []) (ts : List Text) :
    Text.joinWith sep (t :: ts) ≠ [] := by
  cases ts with
  | nil => exact h
  | cons t' ts =>
      unfold Text.joinWith
      exact List.append_ne_nil_of_left_ne_nil (List.append_ne_nil_of_left_ne_nil h sep) _

/-- A report begins with the number of the instruction. -/
theorem FailedStep.report_ne_nil (f : FailedStep) : f.report ≠ [] := by
  refine Text.joinWith_ne_nil ?_ _
  have hword : "instruction #".toList ≠ [] := by decide
  simp only [List.append_assoc]
  exact List.append_ne_nil_of_left_ne_nil hword _

/-- A problem has a message, unless it is a store's refusal that has none. -/
theorem Problem.refusal_of_message {p : Problem} (h : p.message = []) :
    ∃ e : StoreError, e.message = [] ∧ (p = .notFetched e ∨ p = .notStored e) := by
  cases p with
  | notFetched e => exact ⟨e, h, .inl rfl⟩
  | notStored e => exact ⟨e, h, .inr rfl⟩
  | notMerged step => exact absurd h step.report_ne_nil
  | nothingToDelete => exact absurd h (by decide)
  | noChanges => exact absurd h (by decide)

/-! ## Changes -/

/-- The status, the texts and the problem of a change go together. -/
structure Change.IsCoherent (c : Change) : Prop where
  /-- A file was there if its text was read. -/
  existed : c.existed = c.before.isSome
  deletion : c.status = .pending → c.isDeletion = true → c.existed = true ∧ c.after = none
  /-- What is to be written is another text than the one that was there. -/
  writing : c.status = .pending → c.isDeletion = false →
    ∃ text, c.after = some text ∧ (c.existed = true → c.before ≠ some text)
  anchor : c.status = .anchorNotFound ↔ c.problem.bind Problem.mergeKind? = some .anchorNotFound ∨
    c.problem.bind Problem.mergeKind? = some .anchorAmbiguous
  explained : c.status = .failed ∨ c.status = .anchorNotFound ∨ c.status = .skipped →
    ∃ p, c.problem = some p ∧
      (p.message = [] → ∃ e : StoreError, e.message = [] ∧ (p = .notFetched e ∨ p = .notStored e))
  unexplained : c.status = .pending ∨ c.status = .success → c.problem = none

namespace Change.IsCoherent

variable {c : Change}

/-- A change that a problem stops. -/
theorem stopped (p : Problem) (hexisted : c.existed = c.before.isSome) :
    (c.stopped p).IsCoherent where
  existed := hexisted
  deletion h := absurd h p.status_ne.2
  writing h := absurd h p.status_ne.2
  anchor := p.status_eq_anchorNotFound
  explained _ := ⟨p, rfl, p.refusal_of_message⟩
  unexplained h := (h.elim p.status_ne.2 p.status_ne.1).elim

/-- A change that has no problem and is still to be made. -/
theorem pending (hstatus : c.status = .pending) (hproblem : c.problem = none)
    (hexisted : c.existed = c.before.isSome)
    (hdeletion : c.isDeletion = true → c.existed = true ∧ c.after = none)
    (hwriting : c.isDeletion = false →
      ∃ text, c.after = some text ∧ (c.existed = true → c.before ≠ some text)) : c.IsCoherent where
  existed := hexisted
  deletion _ := hdeletion
  writing _ := hwriting
  anchor := by
    rw [hstatus, hproblem]
    exact ⟨nofun, fun h => h.elim nofun nofun⟩
  explained h := by
    rw [hstatus] at h
    rcases h with h | h | h <;> cases h
  unexplained _ := hproblem

/-- A change that is made. -/
theorem made (h : c.IsCoherent) (hstatus : c.status = .pending) (token : Option Token) :
    Change.IsCoherent { c with status := .success, token } where
  existed := h.existed
  deletion := nofun
  writing := nofun
  anchor := by
    rw [h.unexplained (.inl hstatus)]
    exact ⟨nofun, fun h => h.elim nofun nofun⟩
  explained h := by rcases h with h | h | h <;> cases h
  unexplained _ := h.unexplained (.inl hstatus)

/-- Whatever a commit makes of the change. -/
theorem of_advances {c' : Change} (h : c.IsCoherent) (hadvances : c.Advances c') : c'.IsCoherent := by
  cases hadvances with
  | kept => exact h
  | made token status => exact h.made status token
  | refused e status => exact .stopped _ h.existed

end Change.IsCoherent

theorem Change.Advances.same {c c' : Change} (h : c.Advances c') :
    (c'.path, c'.instructions) = (c.path, c.instructions) := by
  cases h <;> rfl

namespace Session

variable {s : Session σ} {st : σ}

/-- Applying instructions to a change that has only been fetched makes it coherent. -/
theorem isCoherent_merged {m : Merger} {c : Change} (hne : c.instructions ≠ [])
    (hstatus : c.status = .pending) (hproblem : c.problem = none) (hdeletion : c.isDeletion = false)
    (hafter : c.after = none) (hexisted : c.existed = c.before.isSome) :
    (merged c (m.applyAll c.instructions c.before)).IsCoherent := by
  have hdeleted : (m.applyAll c.instructions c.before).failure = none →
      (m.applyAll c.instructions c.before).deleted =
        (m.applyAll c.instructions c.before).content.isNone := Merger.deleted_applyAll hne
  generalize m.applyAll c.instructions c.before = r at hdeleted
  unfold merged
  cases hfailure : r.failure with
  | some step => exact .stopped _ hexisted
  | none =>
      have hdeleted := hdeleted hfailure
      dsimp only
      split
      · split
        · rename_i hfound
          exact .pending hstatus hproblem hexisted (fun _ => ⟨hfound, hafter⟩) nofun
        · exact .stopped _ hexisted
      · rename_i hkept
        split
        · exact .stopped _ hexisted
        · rename_i hchanged
          refine .pending hstatus hproblem hexisted (fun h => ?_) fun _ => ?_
          · cases hdeletion.symm.trans h
          · cases hcontent : r.content with
            | none =>
                rw [hdeleted, hcontent] at hkept
                exact absurd rfl hkept
            | some text =>
                refine ⟨text, rfl, fun hfound hsame => hchanged ⟨hfound, ?_⟩⟩
                rw [hcontent]
                exact hsame.symm

theorem ensures_merge_coherent {c : Change} (hne : c.instructions ≠ []) (hstatus : c.status = .pending)
    (hproblem : c.problem = none) (hdeletion : c.isDeletion = false) (hafter : c.after = none)
    (hexisted : c.existed = c.before.isSome) :
    (s.merge c).Ensures st fun c' _ =>
      (c'.path, c'.instructions) = (c.path, c.instructions) ∧ c'.IsCoherent := by
  refine (ensures_trivial _ _).bind fun _ _ _ => ensures_pure ⟨?_, ?_⟩
  · obtain ⟨hpath, hinstructions, -⟩ := merged_keeps c (s.merger.applyAll c.instructions c.before)
    exact Prod.ext hpath hinstructions
  · exact isCoherent_merged hne hstatus hproblem hdeletion hafter hexisted

theorem ensures_prepareFile_coherent (ref : Option Text) {g : Text × List Instruction}
    (hne : g.2 ≠ []) :
    (s.prepareFile ref g.1 g.2).Ensures st fun c _ =>
      (c.path, c.instructions) = g ∧ c.IsCoherent := by
  rw [prepareFile]
  split
  · exact ensures_merge_coherent hne rfl rfl rfl rfl rfl
  · refine (ensures_trivial _ _).bind fun answer _ _ => ?_
    rcases answer with e | _ | f
    · exact ensures_pure ⟨rfl, .stopped _ rfl⟩
    · exact ensures_merge_coherent hne rfl rfl rfl rfl rfl
    · exact ensures_merge_coherent hne rfl rfl rfl rfl rfl

end Session

/-! ## Batches -/

/-- The batch deals with the instructions that are selected, path by path. `is` are the instructions of
the message. -/
structure Batch.IsCoherent (is : List Instruction) (selection : Option (List Int)) (b : Batch) :
    Prop where
  distinct : (b.changes.map (·.path)).Nodup
  /-- The changes stand in the order in which their paths first appear. -/
  ordered : (b.changes.map (·.path)).Pairwise fun p q =>
    Instruction.firstAt (Session.selected is selection) p <
      Instruction.firstAt (Session.selected is selection) q
  /-- A change holds the instructions of its path in their order, and has at least one. -/
  grouped : ∀ c ∈ b.changes, c.instructions ≠ [] ∧
    c.instructions = (Session.selected is selection).filter (·.path = c.path)
  /-- Each instruction that is selected is in one change. -/
  covered : ∀ i ∈ Session.selected is selection, ∃! c, c ∈ b.changes ∧ i ∈ c.instructions
  /-- The numbers that no instruction has are ignored, in ascending order. -/
  ignored : b.ignored.Pairwise (· < ·) ∧
    ∀ n, n ∈ b.ignored ↔ n ∈ selection.getD [] ∧ ¬ (0 ≤ n ∧ n < is.length)
  each : ∀ c ∈ b.changes, c.IsCoherent

namespace Batch

variable {is : List Instruction} {selection : Option (List Int)} {b : Batch}

theorem isCoherent_of_groups
    (hgroups : b.changes.map (fun c => (c.path, c.instructions)) =
      Instruction.groupByPath (Session.selected is selection))
    (hignored : b.ignored = (Session.select is selection).2) (heach : ∀ c ∈ b.changes, c.IsCoherent) :
    b.IsCoherent is selection := by
  generalize hsel : Session.selected is selection = sel at hgroups
  have hpaths : b.changes.map (·.path) = Instruction.paths sel := by
    rw [← Instruction.map_fst_groupByPath, ← hgroups, List.map_map]
    rfl
  have hnodup : (b.changes.map (·.path)).Nodup := hpaths ▸ Instruction.nodup_paths sel
  have hgroup : ∀ c ∈ b.changes, (c.path, c.instructions) ∈ Instruction.groupByPath sel := by
    intro c hc
    rw [← hgroups]
    exact List.mem_map_of_mem (f := fun c : Change => (c.path, c.instructions)) hc
  have hinstructions : ∀ c ∈ b.changes, c.instructions = sel.filter (·.path = c.path) :=
    fun c hc => Instruction.snd_of_mem_groupByPath (hgroup c hc)
  have hpathOf : ∀ c ∈ b.changes, ∀ i ∈ c.instructions, i.path = c.path := by
    intro c hc i hi
    rw [hinstructions c hc] at hi
    exact of_decide_eq_true (List.mem_filter.mp hi).2
  refine ⟨hnodup, ?_, ?_, ?_, ?_, heach⟩
  · rw [hpaths, hsel]
    exact Instruction.pairwise_paths sel
  · intro c hc
    rw [hsel]
    exact ⟨Instruction.ne_nil_of_mem_groupByPath (hgroup c hc), hinstructions c hc⟩
  · intro i hi
    rw [hsel] at hi
    have hpath : i.path ∈ b.changes.map (·.path) := by
      rw [hpaths, Instruction.mem_paths]
      exact List.mem_map_of_mem hi
    obtain ⟨c, hc, hsame⟩ := List.mem_map.mp hpath
    refine ⟨c, ⟨hc, ?_⟩, fun d hd => ?_⟩
    · rw [hinstructions c hc]
      exact List.mem_filter.mpr ⟨hi, decide_eq_true hsame.symm⟩
    · have hdpath : d.path = c.path := (hpathOf d hd.1 i hd.2).symm.trans hsame.symm
      exact List.inj_on_of_nodup_map hnodup hd.1 hc hdpath
  · rw [hignored]
    exact ⟨Session.pairwise_snd_select is selection, fun n => Session.mem_snd_select⟩

/-- A batch whose changes advance deals with the same instructions. -/
theorem groups_of_advances {cs cs' : List Change} (h : List.Forall₂ Change.Advances cs cs') :
    cs'.map (fun c => (c.path, c.instructions)) = cs.map fun c => (c.path, c.instructions) := by
  induction h with
  | nil => rfl
  | cons hhead _ ih => rw [List.map_cons, List.map_cons, hhead.same, ih]

theorem each_of_advances {cs cs' : List Change} (h : List.Forall₂ Change.Advances cs cs')
    (hcs : ∀ c ∈ cs, c.IsCoherent) : ∀ c ∈ cs', c.IsCoherent := by
  intro c' hc'
  obtain ⟨i, hi⟩ := List.mem_iff_getElem?.mp hc'
  obtain ⟨c, hc, hadvances⟩ := exists_getElem?_of_forall₂ h hi
  exact (hcs c (List.mem_of_getElem? hc)).of_advances hadvances

end Batch

namespace Session

/-- Preparing a message makes the groups of the selected instructions into coherent changes. -/
theorem ensures_prepare_groups (s : Session σ) (message : Text) (ref : Option Text)
    (selection : Option (List Int)) (st : σ) :
    (s.prepare message ref selection).Ensures st fun b _ =>
      b.changes.map (fun c => (c.path, c.instructions)) = Instruction.groupByPath
          (selected (Message.parse s.config.fileTag message).instructions selection) ∧
        b.ignored = (select (Message.parse s.config.fileTag message).instructions selection).2 ∧
        ∀ c ∈ b.changes, c.IsCoherent := by
  refine ensures_prepare_batch (fun _ => True) _ trivial (fun ns st _ => ensures_trivial _ _) ?_
  intro st _
  have hfile : ∀ g ∈ Instruction.groupByPath
      (select (Message.parse s.config.fileTag message).instructions selection).1, ∀ st, True →
      (s.prepareFile (s.activeRef ref) g.1 g.2).Ensures st fun c _ =>
        True ∧ (c.path, c.instructions) = g ∧ c.IsCoherent := fun g hg st _ =>
    (ensures_prepareFile_coherent _ (Instruction.ne_nil_of_mem_groupByPath hg)).mono
      fun _ _ h => ⟨trivial, h⟩
  refine (ensures_prepareFiles _ _ (fun _ _ _ => ensures_trivial _ _) hfile trivial).mono ?_
  rintro cs _ ⟨-, hgroups, hall⟩
  rw [fst_select] at hgroups
  exact ⟨hgroups, rfl, hall⟩

/-- **A batch is coherent at every stage**: when it has been prepared, and after every commit, however
many there are and whatever ended them. Selections with the same numbers prepare the same. -/
theorem prepare_coherent (s : Session σ) (message : Text) (ref : Option Text)
    (selection : Option (List Int)) (st st' : σ) (b : Batch)
    (hprepared : (s.prepare message ref selection st).result = .ok b) (rs : List (Round σ)) :
    (∀ asked asked', selection = some asked → (∀ n, n ∈ asked' ↔ n ∈ asked) →
      s.prepare message ref (some asked') = s.prepare message ref selection) ∧
    ∃ stages, (b.commitAll rs st').result = .ok stages ∧ stages.length = rs.length ∧
      ∀ stage ∈ (b, none) :: stages,
        stage.1.IsCoherent (Message.parse s.config.fileTag message).instructions selection := by
  refine ⟨?_, ?_⟩
  · rintro asked asked' rfl hsame
    rw [prepare, prepare, select_congr hsame]
  · obtain ⟨hgroups, hignored, heach⟩ := s.ensures_prepare_groups message ref selection st b hprepared
    obtain ⟨pages, hlength, hresult, hledger⟩ := b.exists_ledger rs st'
    refine ⟨b.stages pages, hresult, ?_, ?_⟩
    · rw [Batch.stages, List.length_map, hlength]
    · intro stage hstage
      rcases List.mem_cons.mp hstage with rfl | hstage
      · exact Batch.isCoherent_of_groups hgroups hignored heach
      · obtain ⟨page, hpage, rfl⟩ := List.mem_map.mp hstage
        -- from the beginning to this stage the changes advance
        have hadvances : List.Forall₂ Change.Advances b.changes page.changes :=
          (List.pairwise_cons.mp hledger.pairwise_advances).1 _ (List.mem_map_of_mem hpage)
        refine Batch.isCoherent_of_groups ?_ hignored (Batch.each_of_advances hadvances heach)
        exact (Batch.groups_of_advances hadvances).trans hgroups

/-- Two edits of one file, with an edit of another between them. -/
def sampleEdits : Text :=
  "[FILE] b.txt\n[CREATE]1[/CREATE]\n[FILE] a.txt\n[DELETE_FILE]\n[FILE] b.txt\n[REPLACE]2[/REPLACE]".toList

/-- The first and the last of them are asked for, one of them twice, and others that do not exist. -/
theorem prepare_coherent_sample :
    let s : Session Memory := { store := Memory.store }
    let selection : Option (List Int) := some [2, 7, 0, 2, -1]
    let st : Memory := { files := [("b.txt".toList, "0".toList)] }
    ∃ b, (s.prepare sampleEdits none selection st).result = .ok b ∧
      b.changes.map (fun c => (c.path, c.instructions.length, c.status)) =
        [("b.txt".toList, 2, .pending)] ∧
      b.ignored = [-1, 7] ∧
      ∃ stages, (b.commitAll [⟨s, none⟩, ⟨s, none⟩] st).result = .ok stages ∧ stages.length = 2 ∧
        ∀ stage ∈ (b, none) :: stages,
          stage.1.IsCoherent (Message.parse .standard sampleEdits).instructions selection := by
  intro s selection st
  have hnumbers : ascending [2, 7, 0, 2, -1] = [-1, 0, 2, 7] :=
    (pairwise_ascending _).sortedLT.eq_of_mem_iff (by decide) fun n => by simp [mem_ascending]; omega
  have hselect : select (Message.parse s.config.fileTag sampleEdits).instructions selection =
      ([{ path := "b.txt".toList, operation := .create, content := some "1".toList },
        { path := "b.txt".toList, operation := .replace, content := some "2".toList }], [-1, 7]) := by
    rw [select, hnumbers]
    decide +kernel
  obtain ⟨b, hb, hchanges, hignored⟩ : ∃ b, (s.prepare sampleEdits none selection st).result = .ok b ∧
      b.changes.map (fun c => (c.path, c.instructions.length, c.status)) =
        [("b.txt".toList, 2, .pending)] ∧ b.ignored = [-1, 7] := by
    unfold prepare
    rw [hselect]
    exact exists_of_answer (by decide +kernel)
  obtain ⟨-, hstages⟩ :=
    s.prepare_coherent sampleEdits none selection st st b hb [⟨s, none⟩, ⟨s, none⟩]
  exact ⟨b, hb, hchanges, hignored, hstages⟩

end Session

end Emend
