import Emend.Proofs.Batch.Prospect

/-!
# What becomes of a prepared change

A prospect tells what a commit does to its file: nothing, or what the instructions make of the text that
the file has, unless the store refuses. Since the paths of a batch differ, what is done to one file
leaves the prospects of the others as they were.
-/

namespace Emend

theorem ChangeStatus.isFailure_iff {st : ChangeStatus} :
    st.isFailure = true ↔ st = .failed ∨ st = .anchorNotFound := by
  cases st <;> decide

/-- What became of a file: `before` is the text it had, `after` the text it has, `r` what its
instructions make of the former. -/
structure Fate (r : MergeResult) (before after : Option Text) (hasFailed : Prop) (c : Change) : Prop where
  kept : hasFailed ∨ r.failure.isSome → after = before ∧ c.status.isFailure
  made : ¬ (hasFailed ∨ r.failure.isSome) →
    after = r.content ∧ (c.status = .success ∨ c.status = .skipped)

theorem Fate.of_kept {r : MergeResult} {now : Option Text} {hasFailed : Prop} {c : Change}
    (why : hasFailed ∨ r.failure.isSome) (hstatus : c.status.isFailure) :
    Fate r now now hasFailed c :=
  ⟨fun _ => ⟨rfl, hstatus⟩, fun hnot => absurd why hnot⟩

theorem Fate.of_made {r : MergeResult} {before after : Option Text} {hasFailed : Prop} {c : Change}
    (hcalls : ¬ hasFailed) (hmerged : r.failure = none) (hcontent : after = r.content)
    (hstatus : c.status = .success ∨ c.status = .skipped) : Fate r before after hasFailed c := by
  refine ⟨fun hor => ?_, fun _ => ⟨hcontent, hstatus⟩⟩
  rcases hor with h | h
  · exact absurd h hcalls
  · rw [hmerged] at h
    cases h

/-- What is not pending has met its fate. -/
theorem Prospect.fate {r : MergeResult} {now : Option Text} {hasFailed : Prop} {c : Change}
    (h : Prospect r now hasFailed c) (hstatus : c.status ≠ .pending) : Fate r now now hasFailed c := by
  cases h with
  | stopped why status => exact .of_kept why status
  | settled calls merged content status => exact .of_made calls merged content (.inr status)
  | deletion _ _ _ status => exact absurd status hstatus
  | writing _ _ _ _ _ status => exact absurd status hstatus

/-- The change can be stored where its file has the text `now`: its token is not stale, and there is a
text to write unless the file is to be deleted. -/
def Change.IsFresh (c : Change) (now : Option Text) : Prop :=
  c.isDeletion = true ∧ c.token = now.map tokenOf ∨
    c.isDeletion = false ∧ c.after.isSome ∧ (c.token = none ∨ c.token = now.map tokenOf)

/-- What is pending is fresh, and its result is what the instructions ask for. -/
theorem Prospect.isFresh {r : MergeResult} {now : Option Text} {hasFailed : Prop} {c : Change}
    (h : Prospect r now hasFailed c) (hstatus : c.status = .pending) :
    ¬ hasFailed ∧ r.failure = none ∧ r.content = c.result ∧ c.IsFresh now := by
  rw [Change.result]
  cases h with
  | stopped why status =>
      rw [hstatus] at status
      cases status
  | settled _ _ _ status =>
      rw [hstatus] at status
      cases status
  | deletion calls merged content _ isDeletion token =>
      rw [if_pos isDeletion]
      exact ⟨calls, merged, content, .inl ⟨isDeletion, token⟩⟩
  | writing text calls merged content after _ isDeletion token =>
      rw [isDeletion, after]
      exact ⟨calls, merged, content, .inr ⟨isDeletion, by rw [after]; rfl, token⟩⟩

namespace Session

open Act

variable {σ : Type} {s : Session σ} {inv : σ → Prop} {files : σ → Text → Option Text}
  {out : StoreMethod → Text → Prop}

/-! ## One change -/

/-- Storing a change whose token is not stale gives its file the change's result, or fails. -/
theorem gives_storeChange (hstore : s.store.MapLike inv files out) (ref : Option Text) (c : Change)
    (message : Text) {st : σ × List Call} (h : Sound inv out st)
    (hfresh : c.IsFresh (files st.1 c.path)) :
    (s.watched.storeChange ref c message).attempt.Gives st fun answer st' =>
      Sound inv out st' ∧ Frame files [c.path] st st' ∧
        match answer with
        | .ok _ => files st'.1 c.path = c.result ∧ (FailedAt st'.2 c.path ↔ FailedAt st.2 c.path)
        | .error _ => files st'.1 c.path = files st.1 c.path ∧ FailedAt st'.2 c.path := by
  rcases hfresh with ⟨hdeletion, htoken⟩ | ⟨hdeletion, hafter, htoken⟩
  · rw [storeChange_of_isDeletion hdeletion]
    refine Gives.attempt_map ?_
    refine ((hstore.delete st.1 c.path c.token ref (some message) h.state).watched .delete c.path
      st.2).mono ?_
    rintro answer st' ⟨⟨hinv, hanswer⟩, hcall⟩
    have hresult : c.result = none := if_pos hdeletion
    cases answer with
    | ok =>
        rw [hresult]
        exact stored_of_answer h hinv hcall hanswer.2
    | error e =>
        -- the token is that of the text, so the refusal was for another reason
        have hout := hanswer.2.resolve_right fun hstale => hstale htoken
        exact stored_of_answer (t := none) h hinv hcall ⟨hanswer.1, hout⟩
  · have hresult : c.result = some (c.after.getD []) := by
      obtain ⟨text, htext⟩ := Option.isSome_iff_exists.mp hafter
      rw [Change.result, hdeletion, htext]
      rfl
    rw [storeChange_of_writes hdeletion]
    refine Gives.attempt_map ?_
    refine ((hstore.write st.1 c.path (c.after.getD []) c.token ref (some message) h.state).watched
      .write c.path st.2).mono ?_
    rintro answer st' ⟨⟨hinv, hanswer⟩, hcall⟩
    cases answer with
    | ok token =>
        rw [hresult]
        exact stored_of_answer h hinv hcall hanswer.2.2
    | error e =>
        have hout := hanswer.2.resolve_right fun hstale => by
          rcases htoken with htoken | htoken
          · rw [Store.IsStaleWrite, htoken] at hstale
            exact Bool.noConfusion hstale.1
          · exact hstale.2 htoken
        exact stored_of_answer (t := none) h hinv hcall ⟨hanswer.1, hout⟩

/-- **A pending change is committed**: its file meets its fate, and no other is touched. -/
theorem gives_commitChange (hstore : s.store.MapLike inv files out) (hquiet : s.IsQuiet inv files)
    (ref : Option Text) {c : Change} {r : MergeResult} {st : σ × List Call} (h : Sound inv out st)
    (hmessage : ∃ m, s.config.messageFor c.path c.operation = .ok m) (hstatus : c.status = .pending)
    (hprospect : Prospect r (files st.1 c.path) (FailedAt st.2 c.path) c) :
    (s.watched.commitChange ref c).Gives st fun c' st' =>
      Sound inv out st' ∧ Frame files [c.path] st st' ∧ c'.path = c.path ∧
        Fate r (files st.1 c.path) (files st'.1 c.path) (FailedAt st'.2 c.path) c' := by
  obtain ⟨m, hm⟩ := hmessage
  obtain ⟨hcalls, hmerged, hcontent, hfresh⟩ := hprospect.isFresh hstatus
  have hmessage : (s.config.messageFor c.path c.operation).mapError Failure.template = .ok m := by
    rw [hm]
    rfl
  have hformed : (ofExcept ((s.config.messageFor c.path c.operation).mapError .template)).Gives st
      fun m' st' => m' = m ∧ st' = st := gives_ofExcept hmessage ⟨rfl, rfl⟩
  refine hformed.bind ?_
  rintro m' st' ⟨rfl, rfl⟩
  refine (gives_storeChange hstore ref c _ h hfresh).bind ?_
  rintro answer st₁ ⟨hsound, hframe, hanswer⟩
  cases answer with
  | error e =>
      obtain ⟨hfiles, hfailed⟩ := hanswer
      refine (gives_note hquiet _ hsound).bind ?_
      rintro - st' ⟨hsound', hfiles', hcalls'⟩
      refine gives_pure ⟨hsound', hframe.trans (.of_eq hfiles' hcalls'), rfl, ?_⟩
      rw [hfiles', hcalls', hfiles]
      exact .of_kept (.inl hfailed) rfl
  | ok token =>
      obtain ⟨hfiles, hiff⟩ := hanswer
      refine (gives_note hquiet _ hsound).bind ?_
      rintro - st' ⟨hsound', hfiles', hcalls'⟩
      refine gives_pure ⟨hsound', hframe.trans (.of_eq hfiles' hcalls'), rfl, ?_⟩
      rw [hfiles', hcalls', hfiles, hiff]
      exact .of_made hcalls hmerged hcontent.symm (.inl rfl)

/-- The change of a group has met its fate, given the texts before and after and the calls made. -/
structure Committed (m : Merger) (before after : Text → Option Text) (calls : List Call)
    (g : Text × List Instruction) (c : Change) : Prop where
  path : c.path = g.1
  fate : Fate (m.applyAll g.2 (before g.1)) (before g.1) (after g.1) (FailedAt calls g.1) c

/-- What has become of a file is not altered by what is done to others. -/
theorem Committed.congr {m : Merger} {before after after' : Text → Option Text} {calls calls' : List Call}
    {g : Text × List Instruction} {c : Change} (h : Committed m before after calls g c)
    (hafter : after' g.1 = after g.1) (hiff : FailedAt calls' g.1 ↔ FailedAt calls g.1) :
    Committed m before after' calls' g c :=
  ⟨h.path, hafter ▸ propext hiff ▸ h.fate⟩

/-! ## Every change -/

/-- The message of a prepared change is that of the first instruction for its file. -/
theorem messageFor_of_prepared {F : Text → Option Text} {calls : List Call}
    {g : Text × List Instruction} {c : Change} (hprepared : Prepared s.merger F calls g c)
    (hne : g.2 ≠ []) (hformat : ∀ i ∈ g.2, ∃ m, s.config.messageFor g.1 i.operation = .ok m) :
    ∃ m, s.config.messageFor c.path c.operation = .ok m := by
  obtain ⟨i, rest, hcons⟩ := List.exists_cons_of_ne_nil hne
  have hoperation : c.operation = i.operation := by
    rw [Change.operation, hprepared.instructions, hcons]
    rfl
  rw [hprepared.path, hoperation]
  exact hformat i (hcons ▸ List.mem_cons_self)

/-- One change of a list is committed, whatever is to come of the rest. -/
theorem gives_commitStep (hstore : s.store.MapLike inv files out) (hquiet : s.IsQuiet inv files)
    (ref : Option Text) {F : Text → Option Text} {g : Text × List Instruction} {c : Change}
    {st : σ × List Call} (h : Sound inv out st)
    (hmessage : ∃ m, s.config.messageFor c.path c.operation = .ok m) (hF : files st.1 g.1 = F g.1)
    (hprepared : Prepared s.merger F st.2 g c) {cs : List Change}
    {post : List Change × Option Failure → σ × List Call → Prop}
    (hrest : ∀ c' st', Sound inv out st' → Frame files [g.1] st st' →
      Committed s.merger F (files st'.1) st'.2 g c' →
      (s.watched.commitChanges ref cs).Gives st' fun answer st'' => post (c' :: answer.1, answer.2) st'') :
    (s.watched.commitChanges ref (c :: cs)).Gives st post := by
  obtain ⟨path, is⟩ := g
  obtain ⟨rfl, -, hprospect⟩ := hprepared
  dsimp only at hF hprospect
  rw [commitChanges]
  by_cases hstatus : c.status = .pending
  · rw [if_pos hstatus]
    rw [← hF] at hprospect
    refine (gives_commitChange hstore hquiet ref h hmessage hstatus hprospect).outcome.bind ?_
    rintro answer st' ⟨c', rfl, hsound, hframe, hpath', hfate⟩
    rw [hF] at hfate
    refine (hrest c' st' hsound hframe ⟨hpath', hfate⟩).bind ?_
    exact fun answer st'' hpost => gives_pure hpost
  · rw [if_neg hstatus]
    have hfate := hprospect.fate hstatus
    refine (hrest c st h (.refl _ _) ⟨rfl, hF ▸ hfate⟩).bind ?_
    exact fun answer st'' hpost => gives_pure hpost

/-- **The changes of different files are committed** one by one: none keeps another from it. -/
theorem gives_commitChanges (hstore : s.store.MapLike inv files out) (hquiet : s.IsQuiet inv files)
    (ref : Option Text) {F : Text → Option Text} {gs : List (Text × List Instruction)}
    {cs : List Change} (hnodup : (gs.map (·.1)).Nodup) {st : σ × List Call} (h : Sound inv out st)
    (hne : ∀ g ∈ gs, g.2 ≠ [])
    (hformat : ∀ g ∈ gs, ∀ i ∈ g.2, ∃ m, s.config.messageFor g.1 i.operation = .ok m)
    (hF : ∀ g ∈ gs, files st.1 g.1 = F g.1)
    (hprepared : List.Forall₂ (Prepared s.merger F st.2) gs cs) :
    (s.watched.commitChanges ref cs).Gives st fun answer st' =>
      answer.2 = none ∧ Sound inv out st' ∧ Frame files (gs.map (·.1)) st st' ∧
        List.Forall₂ (Committed s.merger F (files st'.1) st'.2) gs answer.1 := by
  -- on the files: those still to come keep their texts, so their changes stay prepared
  induction gs generalizing cs st with
  | nil =>
      cases hprepared
      exact gives_pure ⟨rfl, h, .refl _ _, .nil⟩
  | cons g gs ih =>
      obtain _ | ⟨hhead, htail⟩ := hprepared
      rename_i c cs
      rw [List.map_cons, List.nodup_cons] at hnodup
      obtain ⟨hnotin, hnodup⟩ := hnodup
      have hmessage := messageFor_of_prepared hhead (hne g List.mem_cons_self)
        (hformat g List.mem_cons_self)
      refine gives_commitStep hstore hquiet ref h hmessage (hF g List.mem_cons_self) hhead
        fun c' st' hsound hframe hcommitted => ?_
      have hother : ∀ g' ∈ gs, g'.1 ∉ [g.1] := fun _ => Instruction.fst_not_mem_singleton hnotin
      have htail' : List.Forall₂ (Prepared s.merger F st'.2) gs cs :=
        ((List.forall₂_and_left _ _).mpr ⟨hother, htail⟩).imp fun g' _ ⟨hg', hprepared⟩ =>
          hprepared.congr (hframe.calls g'.1 hg')
      refine (ih hnodup hsound (fun g hg => hne g (List.mem_cons_of_mem _ hg))
        (fun g hg => hformat g (List.mem_cons_of_mem _ hg)) (fun g' hg' => ?_) htail').mono ?_
      · rw [hframe.files _ (hother g' hg')]
        exact hF g' (List.mem_cons_of_mem _ hg')
      · rintro ⟨cs', e⟩ st'' ⟨he, hsound', hframe', hall⟩
        refine ⟨he, hsound', hframe.cons hframe', .cons ?_ hall⟩
        exact hcommitted.congr (hframe'.files _ hnotin) (hframe'.calls _ hnotin)

/-- The change of a group is the one that the batch has for its path. -/
theorem find?_of_committed {m : Merger} {before after : Text → Option Text} {calls : List Call}
    {gs : List (Text × List Instruction)} {cs : List Change}
    (h : List.Forall₂ (Committed m before after calls) gs cs) (hnodup : (gs.map (·.1)).Nodup)
    {g : Text × List Instruction} (hg : g ∈ gs) :
    ∃ c, cs.find? (·.path = g.1) = some c ∧ Committed m before after calls g c :=
  Change.exists_find?_of_forall₂ h (fun _ _ hcommitted => hcommitted.path) hnodup hg

/-- Committing a batch whose changes are prepared. -/
theorem gives_commit (hstore : s.store.MapLike inv files out) (hquiet : s.IsQuiet inv files)
    (ref : Option Text) {is : List Instruction} {F : Text → Option Text} {b : Batch}
    {st : σ × List Call} (h : Sound inv out st)
    (hformat : ∀ i ∈ is, ∃ m, s.config.messageFor i.path i.operation = .ok m)
    (hF : files st.1 = F)
    (hprepared : List.Forall₂ (Prepared s.merger F st.2) (Instruction.groupByPath is) b.changes) :
    (s.watched.commit b ref).Gives st fun answer st' =>
      answer.2 = none ∧ Sound inv out st' ∧ Frame files (Instruction.paths is) st st' ∧
        List.Forall₂ (Committed s.merger F (files st'.1) st'.2) (Instruction.groupByPath is)
          answer.1.changes := by
  have hnodup : ((Instruction.groupByPath is).map (·.1)).Nodup :=
    Instruction.map_fst_groupByPath is ▸ Instruction.nodup_paths is
  have hgroups : ∀ g ∈ Instruction.groupByPath is, ∀ i ∈ g.2,
      ∃ m, s.config.messageFor g.1 i.operation = .ok m := by
    intro g hg i hi
    rw [Instruction.snd_of_mem_groupByPath hg] at hi
    obtain ⟨hmem, hpath⟩ := List.mem_filter.mp hi
    rw [← of_decide_eq_true hpath]
    exact hformat i hmem
  refine (gives_commitChanges hstore hquiet _ hnodup h
    (fun g => Instruction.ne_nil_of_mem_groupByPath) hgroups (fun g _ => congrFun hF g.1)
    hprepared).bind ?_
  rintro ⟨cs, e⟩ st' ⟨he, hsound, hframe, hall⟩
  exact gives_pure ⟨he, hsound, Instruction.map_fst_groupByPath is ▸ hframe, hall⟩

end Session

end Emend
