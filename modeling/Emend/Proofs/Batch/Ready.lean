import Emend.Batch.Session
import Emend.Proofs.Act
import Emend.Proofs.Edit.ApplyAll
import Emend.Proofs.Edit.Groups
import Mathlib.Data.List.Forall2

/-!
# What a prepared change can be

Over any store, a prepared change has not been made yet, is a deletion only of a file that was found, and
has a text to write if it is pending and no deletion. The changes of a batch have different paths.
-/

namespace Emend

/-- No problem is a success, and none leaves a change pending. -/
theorem Problem.status_ne (p : Problem) : p.status ≠ .success ∧ p.status ≠ .pending := by
  cases p with
  | notMerged step =>
      rw [Problem.status]
      split <;> exact ⟨nofun, nofun⟩
  | _ => exact ⟨nofun, nofun⟩

/-- What holds of a change that has been prepared and not been made. -/
structure Change.IsReady (c : Change) : Prop where
  unmade : c.status ≠ .success
  deletion : c.isDeletion = true → c.existed = true
  writing : c.status = .pending → c.isDeletion = false → c.after.isSome

/-- A stopped change is not going to be made. -/
theorem Change.IsReady.stopped {c : Change} (p : Problem) (hdeletion : c.isDeletion = false) :
    (c.stopped p).IsReady where
  unmade := p.status_ne.1
  deletion h := by
    rw [Change.stopped, hdeletion] at h
    cases h
  writing h := absurd h p.status_ne.2

/-- Where two lists are related in order, each of the first has one of the second. -/
theorem exists_mem_of_forall₂ {α β : Type} {R : α → β → Prop} {as : List α} {bs : List β}
    (h : List.Forall₂ R as bs) {a : α} (ha : a ∈ as) : ∃ b ∈ bs, R a b := by
  induction h with
  | nil => exact absurd ha List.not_mem_nil
  | cons hhead _ ih =>
      rcases List.mem_cons.mp ha with rfl | ha
      · exact ⟨_, List.mem_cons_self, hhead⟩
      · obtain ⟨b, hb, hrel⟩ := ih ha
        exact ⟨b, List.mem_cons_of_mem _ hb, hrel⟩

/-- Where each of a list has its change, under a path of its own, the change is found by that path. -/
theorem Change.exists_find?_of_forall₂ {α : Type} {key : α → Text} {R : α → Change → Prop}
    {as : List α} {cs : List Change} (h : List.Forall₂ R as cs)
    (hpath : ∀ a c, R a c → c.path = key a) (hnodup : (as.map key).Nodup) {a : α} (ha : a ∈ as) :
    ∃ c, cs.find? (·.path = key a) = some c ∧ R a c := by
  induction h with
  | nil => exact absurd ha List.not_mem_nil
  | cons hhead htail ih =>
      rename_i a' c as cs
      rw [List.map_cons, List.nodup_cons] at hnodup
      rcases List.mem_cons.mp ha with rfl | ha
      · exact ⟨c, List.find?_cons_of_pos (decide_eq_true (hpath a c hhead)), hhead⟩
      · obtain ⟨c', hfind, hR⟩ := ih hnodup.2 ha
        have hother : ¬ c.path = key a := fun h =>
          hnodup.1 (List.mem_map.mpr ⟨a, ha, h.symm.trans (hpath a' c hhead)⟩)
        refine ⟨c', ?_, hR⟩
        rw [List.find?_cons_of_neg (by rw [decide_eq_true_iff]; exact hother), hfind]

namespace Session

open Act

variable {σ : Type} {s : Session σ} {st : σ}

/-- What applying instructions leaves of a change as it is. -/
theorem merged_keeps (c : Change) (r : MergeResult) :
    (merged c r).path = c.path ∧ (merged c r).instructions = c.instructions ∧
      (merged c r).existed = c.existed ∧ (merged c r).token = c.token := by
  rw [merged]
  split
  · exact ⟨rfl, rfl, rfl, rfl⟩
  · split
    · split <;> exact ⟨rfl, rfl, rfl, rfl⟩
    · dsimp only
      split <;> exact ⟨rfl, rfl, rfl, rfl⟩

theorem before_merged (c : Change) (r : MergeResult) : (merged c r).before = c.before := by
  rw [merged]
  split
  · rfl
  · split
    · split <;> rfl
    · dsimp only
      split <;> rfl

/-- Applying instructions readies a change. -/
theorem isReady_merged {m : Merger} {c : Change} (hne : c.instructions ≠ [])
    (hstatus : c.status = .pending) (hdeletion : c.isDeletion = false) :
    (merged c (m.applyAll c.instructions c.before)).IsReady := by
  have hcontent : (m.applyAll c.instructions c.before).failure = none →
      (m.applyAll c.instructions c.before).deleted =
        (m.applyAll c.instructions c.before).content.isNone := Merger.deleted_applyAll hne
  generalize m.applyAll c.instructions c.before = r at hcontent
  rw [merged]
  cases hfailure : r.failure with
  | some step => exact .stopped _ hdeletion
  | none =>
      have hcontent := hcontent hfailure
      dsimp only
      split
      · split
        · rename_i hexisted
          exact ⟨hstatus ▸ nofun, fun _ => hexisted, fun _ h => nomatch h⟩
        · exact .stopped _ hdeletion
      · rename_i hkept
        have hafter : r.content.isSome := by
          cases htext : r.content with
          | none =>
              rw [hcontent, htext] at hkept
              exact absurd rfl hkept
          | some text => rfl
        split
        · exact .stopped _ hdeletion
        · exact ⟨hstatus ▸ nofun, fun h => absurd (hdeletion.symm.trans h) nofun, fun _ _ => hafter⟩

/-- Applying the instructions of a change that has only been fetched readies it. -/
theorem ensures_merge {c : Change} (hne : c.instructions ≠ []) (hstatus : c.status = .pending)
    (hdeletion : c.isDeletion = false) :
    (s.merge c).Ensures st fun c' _ =>
      (c'.path, c'.instructions) = (c.path, c.instructions) ∧ c'.IsReady := by
  refine (ensures_trivial _ _).bind fun _ _ _ => ensures_pure ⟨?_, ?_⟩
  · obtain ⟨hpath, hinstructions, -⟩ := merged_keeps c (s.merger.applyAll c.instructions c.before)
    exact Prod.ext hpath hinstructions
  · exact isReady_merged hne hstatus hdeletion

theorem ensures_prepareFile (ref : Option Text) {g : Text × List Instruction} (hne : g.2 ≠ []) :
    (s.prepareFile ref g.1 g.2).Ensures st fun c _ => (c.path, c.instructions) = g ∧ c.IsReady := by
  rw [prepareFile]
  split
  · exact ensures_merge hne rfl rfl
  · refine (ensures_trivial _ _).bind fun answer _ _ => ?_
    rcases answer with e | _ | f
    · exact ensures_pure ⟨rfl, .stopped _ rfl⟩
    · exact ensures_merge hne rfl rfl
    · exact ensures_merge hne rfl rfl

/-- **Preparing file by file** makes a change of every group. What is ensured of the change of a group, if
`inv` holds before it, is ensured of all changes. -/
theorem ensures_prepareFiles (inv : σ → Prop) (holds : Change → Prop) {ref : Option Text}
    {gs : List (Text × List Instruction)}
    (hnote : ∀ ns st, inv st → (s.note ns).Ensures st fun _ st' => inv st')
    (hfile : ∀ g ∈ gs, ∀ st, inv st → (s.prepareFile ref g.1 g.2).Ensures st fun c st' =>
      inv st' ∧ (c.path, c.instructions) = g ∧ holds c) {st : σ} (h : inv st) :
    (s.prepareFiles ref gs).Ensures st fun cs st' =>
      inv st' ∧ cs.map (fun c => (c.path, c.instructions)) = gs ∧ ∀ c ∈ cs, holds c := by
  induction gs generalizing st with
  | nil => exact ensures_pure ⟨h, rfl, fun c hc => absurd hc List.not_mem_nil⟩
  | cons g gs ih =>
      refine (hfile g List.mem_cons_self st h).bind ?_
      rintro c st₁ ⟨h₁, hgroup, hc⟩
      refine (hnote _ st₁ h₁).bind fun _ st₂ h₂ => ?_
      refine (ih (fun g hg => hfile g (List.mem_cons_of_mem _ hg)) h₂).bind ?_
      rintro cs st' ⟨h', hgroups, hall⟩
      refine ensures_pure ⟨h', ?_, fun c' hc' => ?_⟩
      · rw [List.map_cons, hgroup, hgroups]
      · rcases List.mem_cons.mp hc' with rfl | hc'
        · exact hc
        · exact hall c' hc'

/-- What preparing the files of the selected instructions ensures, preparing the message does of the
batch, if `inv` holds at first and notes do not end it. -/
theorem ensures_prepare_batch (inv : σ → Prop) (post : Batch → σ → Prop) {message : Text}
    {ref : Option Text} {selection : Option (List Int)} (h : inv st)
    (hnote : ∀ ns st, inv st → (s.note ns).Ensures st fun _ st' => inv st')
    (hfiles : ∀ st, inv st → (s.prepareFiles (s.activeRef ref) (Instruction.groupByPath
        (select (Message.parse s.config.fileTag message).instructions selection).1)).Ensures st
      fun cs st' => post
        { changes := cs, errors := (Message.parse s.config.fileTag message).errors,
          ignored := (select (Message.parse s.config.fileTag message).instructions selection).2 } st') :
    (s.prepare message ref selection).Ensures st post := by
  refine (hnote _ st h).bind fun _ st₁ h₁ => ?_
  generalize select (Message.parse s.config.fileTag message).instructions selection = selected at hfiles
  obtain ⟨is, ignored⟩ := selected
  have hrest : ∀ st, inv st → ∀ ns : List Note,
      (do s.note ns
          let changes ← s.prepareFiles (s.activeRef ref) (Instruction.groupByPath is)
          return ({ changes, errors := (Message.parse s.config.fileTag message).errors,
                    ignored } : Batch)).Ensures st post := by
    intro st h ns
    refine (hnote ns st h).bind fun _ st₁ h₁ => ?_
    exact (hfiles st₁ h₁).bind fun cs st₂ hpost => ensures_pure hpost
  dsimp only
  split
  · exact (hnote _ st₁ h₁).bind fun _ st₂ h₂ => hrest st₂ h₂ _
  · exact hrest st₁ h₁ _

/-- The same of the changes alone. -/
theorem ensures_prepare_selected (inv : σ → Prop) (post : List Change → σ → Prop) {message : Text}
    {ref : Option Text} {selection : Option (List Int)} (h : inv st)
    (hnote : ∀ ns st, inv st → (s.note ns).Ensures st fun _ st' => inv st')
    (hfiles : ∀ st, inv st → (s.prepareFiles (s.activeRef ref) (Instruction.groupByPath
      (select (Message.parse s.config.fileTag message).instructions selection).1)).Ensures st post) :
    (s.prepare message ref selection).Ensures st fun b st' => post b.changes st' :=
  ensures_prepare_batch inv (fun b st' => post b.changes st') h hnote hfiles

/-- The same of what any instructions ensure. -/
theorem ensures_prepare_of (inv : σ → Prop) (post : List Change → σ → Prop) {message : Text}
    {ref : Option Text} {selection : Option (List Int)} (h : inv st)
    (hnote : ∀ ns st, inv st → (s.note ns).Ensures st fun _ st' => inv st')
    (hfiles : ∀ is st, inv st →
      (s.prepareFiles (s.activeRef ref) (Instruction.groupByPath is)).Ensures st post) :
    (s.prepare message ref selection).Ensures st fun b st' => post b.changes st' :=
  ensures_prepare_selected inv post h hnote fun st h => hfiles _ st h

/-- **Preparing a message** readies changes of different paths. -/
theorem ensures_prepare (message : Text) (ref : Option Text) (selection : Option (List Int)) :
    (s.prepare message ref selection).Ensures st fun b _ =>
      (b.changes.map (·.path)).Nodup ∧ ∀ c ∈ b.changes, c.IsReady := by
  refine ensures_prepare_of (fun _ => True)
    (fun cs _ => (cs.map (·.path)).Nodup ∧ ∀ c ∈ cs, c.IsReady) trivial
    (fun ns st _ => ensures_trivial _ _) fun is st _ => ?_
  have hfile : ∀ g ∈ Instruction.groupByPath is, ∀ st, True →
      (s.prepareFile (s.activeRef ref) g.1 g.2).Ensures st fun c _ =>
        True ∧ (c.path, c.instructions) = g ∧ c.IsReady := fun g hg st _ =>
    (ensures_prepareFile _ (Instruction.ne_nil_of_mem_groupByPath hg)).mono fun _ _ h => ⟨trivial, h⟩
  refine (ensures_prepareFiles _ _ (fun _ _ _ => ensures_trivial _ _) hfile trivial).mono ?_
  rintro cs _ ⟨-, hgroups, hready⟩
  have hpaths : cs.map (·.path) = Instruction.paths is := by
    rw [← Instruction.map_fst_groupByPath, ← hgroups, List.map_map]
    rfl
  rw [hpaths]
  exact ⟨Instruction.nodup_paths is, hready⟩

/-! ## Nothing is written -/

section

variable {R : σ → σ → Prop} [IsTrans σ R] [Std.Refl R]

theorem keeps_merge (hnote : ∀ ns, (s.note ns).Keeps R) (c : Change) : (s.merge c).Keeps R :=
  (hnote _).bind fun _ => (reads_pure _).keeps

theorem keeps_prepareFile (hfetch : ∀ path ref, (s.store.fetch path ref).Keeps R)
    (hnote : ∀ ns, (s.note ns).Keeps R) (ref : Option Text) (path : Text) (is : List Instruction) :
    (s.prepareFile ref path is).Keeps R := by
  rw [prepareFile]
  split
  · exact keeps_merge hnote _
  · refine (hfetch path ref).attempt.bind fun answer => ?_
    rcases answer with e | _ | f
    · exact (reads_pure _).keeps
    · exact keeps_merge hnote _
    · exact keeps_merge hnote _

theorem keeps_prepareFiles (hfetch : ∀ path ref, (s.store.fetch path ref).Keeps R)
    (hnote : ∀ ns, (s.note ns).Keeps R) (ref : Option Text) (gs : List (Text × List Instruction)) :
    (s.prepareFiles ref gs).Keeps R := by
  induction gs with
  | nil => exact (reads_pure _).keeps
  | cons g gs ih =>
      refine (keeps_prepareFile hfetch hnote ref g.1 g.2).bind fun c => ?_
      exact (hnote _).bind fun _ => ih.bind fun cs => (reads_pure _).keeps

/-- Preparing a message does what fetching and noting do. -/
theorem keeps_prepare (hfetch : ∀ path ref, (s.store.fetch path ref).Keeps R)
    (hnote : ∀ ns, (s.note ns).Keeps R) (message : Text) (ref : Option Text)
    (selection : Option (List Int)) : (s.prepare message ref selection).Keeps R := by
  have hfiles : ∀ (is : List Instruction) (batch : List Change → Batch),
      (do let changes ← s.prepareFiles (s.activeRef ref) (Instruction.groupByPath is)
          return batch changes : Act σ Batch).Keeps R := fun is batch =>
    (keeps_prepareFiles hfetch hnote _ _).bind fun cs => (reads_pure _).keeps
  refine (hnote _).bind fun _ => ?_
  generalize select (Message.parse s.config.fileTag message).instructions selection = selected
  obtain ⟨is, ignored⟩ := selected
  dsimp only
  split
  · exact (hnote _).bind fun _ => (hnote _).bind fun _ => hfiles is _
  · exact (hnote _).bind fun _ => hfiles is _

end

end Session

end Emend
