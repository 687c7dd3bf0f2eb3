import Emend.Batch.Session
import Emend.Proofs.Act

/-!
# What ends the work of a session

A store's refusal is the fate of one file. So preparing a file fails only where its fetch fails for
another reason, and `commit` stops only at a pending change that cannot be made for another reason: the
configured message cannot be filled for it, or the store fails otherwise than by refusing.
-/

namespace Emend.Session

open Act

variable {σ : Type} {s : Session σ} {st : σ} {ref : Option Text} {e : Failure}

theorem note_result (s : Session σ) (ns : List Note) (st : σ) : (s.note ns st).result = .ok () := by
  rw [note]
  cases s.journal <;> rfl

/-- What fails after a note has been made. -/
theorem error_of_note_bind {α : Type} {ns : List Note} {f : Unit → Act σ α}
    (h : ((s.note ns >>= f) st).result = .error e) : ∃ st', (f () st').result = .error e := by
  rcases error_of_bind h with hnote | ⟨_, -, hrest⟩
  · cases (note_result s ns st).symm.trans hnote
  · exact ⟨_, hrest⟩

theorem merge_ne_error (s : Session σ) (c : Change) (st : σ) : (s.merge c st).result ≠ .error e := by
  intro h
  obtain ⟨_, hrest⟩ := error_of_note_bind h
  cases hrest

/-! ## Preparing -/

/-- Preparing the change of a file fails only if the file is not only created and its fetch fails, and
not since the store refuses. -/
theorem unfetchable_of_prepareFile {path : Text} {is : List Instruction}
    (h : (s.prepareFile ref path is st).result = .error e) :
    is.all (·.operation = .create) = false ∧ (s.store.fetch path ref st).result = .error e ∧
      ∀ r, e ≠ .store r := by
  rw [prepareFile] at h
  split at h
  · exact absurd h (merge_ne_error s _ st)
  · rename_i hfetched
    rcases error_of_bind h with hfetch | ⟨answer, -, hrest⟩
    · exact ⟨Bool.eq_false_iff.mpr hfetched, error_of_attempt hfetch⟩
    · rcases answer with r | _ | f
      · cases hrest
      · exact absurd hrest (merge_ne_error s _ _)
      · exact absurd hrest (merge_ne_error s _ _)

/-! ## Committing -/

/-- Why a change cannot be made, other than that the store refuses. -/
inductive Unmakeable (s : Session σ) (ref : Option Text) (c : Change) : Failure → Prop
  | unfilled (e : Template.Error) (hmessage : s.config.messageFor c.path c.operation = .error e) :
      Unmakeable s ref c (.template e)
  | failed (message : Text) (st : σ) (e : Failure)
      (hmessage : s.config.messageFor c.path c.operation = .ok message)
      (hstore : (s.storeChange ref c message st).result = .error e) (hother : ∀ r, e ≠ .store r) :
      Unmakeable s ref c e

theorem unmakeable_of_commitChange {c : Change}
    (h : (s.commitChange ref c st).result = .error e) : s.Unmakeable ref c e := by
  rw [commitChange] at h
  cases hmessage : s.config.messageFor c.path c.operation with
  | error t =>
      rw [hmessage] at h
      cases h
      exact .unfilled t hmessage
  | ok message =>
      rw [hmessage] at h
      rcases error_of_bind h with hnone | ⟨_, hfilled, hrest⟩
      · cases hnone
      · cases hfilled
        rcases error_of_bind hrest with hstore | ⟨answer, -, hrest⟩
        · obtain ⟨hstore, hother⟩ := error_of_attempt hstore
          exact .failed _ _ e hmessage hstore hother
        · rcases answer with r | token
          · obtain ⟨_, hlast⟩ := error_of_note_bind hrest
            cases hlast
          · obtain ⟨_, hlast⟩ := error_of_note_bind hrest
            cases hlast

/-- The changes are worked through until one cannot be made. -/
theorem gives_commitChanges_halt (s : Session σ) (ref : Option Text) (cs : List Change) (st : σ) :
    (s.commitChanges ref cs).Gives st fun r _ =>
      ∀ e ∈ r.2, ∃ c ∈ cs, c.status = .pending ∧ s.Unmakeable ref c e := by
  induction cs generalizing st with
  | nil => exact gives_pure fun e he => absurd he (Option.not_mem_none e)
  | cons c cs ih =>
      have hrest : ∀ (c' : Change) st,
          (s.commitChanges ref cs >>= fun r => pure (c' :: r.1, r.2)).Gives st fun r _ =>
            ∀ e ∈ r.2, ∃ d ∈ c :: cs, d.status = .pending ∧ s.Unmakeable ref d e := by
        refine fun c' st => (ih st).bind fun r _ hhalt => gives_pure fun e he => ?_
        obtain ⟨d, hd, hpending, hwhy⟩ := hhalt e he
        exact ⟨d, List.mem_cons_of_mem c hd, hpending, hwhy⟩
      rw [commitChanges]
      split
      · rename_i hpending
        refine (gives_outcome _ st).bind fun r st' hr => ?_
        cases r with
        | error e =>
            refine gives_pure ?_
            rintro _ ⟨⟩
            exact ⟨c, List.mem_cons_self, hpending, unmakeable_of_commitChange hr.1.symm⟩
        | ok c' => exact hrest c' st'
      · exact hrest c st

/-- Committing a batch always answers, and stops only at a change that cannot be made. -/
theorem result_commit (s : Session σ) (b : Batch) (ref : Option Text) (st : σ) :
    ∃ b' halt, (s.commit b ref st).result = .ok (b', halt) ∧
      ∀ e ∈ halt, ∃ c ∈ b.changes, c.status = .pending ∧ s.Unmakeable (s.activeRef ref) c e := by
  have hcommit : (s.commit b ref).Gives st fun r _ =>
      ∀ e ∈ r.2, ∃ c ∈ b.changes, c.status = .pending ∧ s.Unmakeable (s.activeRef ref) c e :=
    (gives_commitChanges_halt s (s.activeRef ref) b.changes st).bind fun _ _ hhalt => gives_pure hhalt
  obtain ⟨⟨b', halt⟩, hres, hhalt⟩ := hcommit
  exact ⟨b', halt, hres, hhalt⟩

end Emend.Session
