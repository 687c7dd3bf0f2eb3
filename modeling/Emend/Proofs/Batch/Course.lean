import Emend.Batch.Session
import Emend.Proofs.Act
import Mathlib.Data.List.Forall2

/-!
# The course of a commit

A commit goes through the changes of its batch one by one. `gives_commitChange_outcome` says what making
one pending change comes to, by what its call comes to, and `gives_commitChanges_rows` puts these together:
beside each change stands a row with the change afterwards and with what was logged while it was made.

What is logged is left open. It is any list in the state that only gets longer: the calls of the store,
or the requests of a service behind it.
-/

namespace Emend.Session

open Act

variable {σ T : Type} {s : Session σ} {ref : Option Text}

/-- What making a change comes to: its message cannot be filled, or what its call comes to. Notes are of
no account to `post`. -/
theorem gives_commitChange_outcome {c : Change} {st : σ} {post : Except Failure Change → σ → Prop}
    (hunfilled : ∀ e, s.config.messageFor c.path c.operation = .error e →
      post (.error (.template e)) st)
    (hcall : ∀ message, s.config.messageFor c.path c.operation = .ok message →
      (s.storeChange ref c message).attempt.outcome.Gives st fun r st' =>
        match r with
        | .error e => post (.error e) st'
        | .ok (.error e) => post (.ok (c.stopped (.notStored e))) st'
        | .ok (.ok token) => post (.ok { c with status := .success, token }) st')
    (hnote : ∀ r ns st', post r st' → post r (s.note ns st').state) :
    (s.commitChange ref c).outcome.Gives st post := by
  -- whichever note is made at the end, the change that is answered is settled before
  have hnoted : ∀ (ns : List Note) (c' : Change) (st' : σ), post (.ok c') st' →
      (s.note ns >>= fun _ => pure c').outcome.Gives st' post := by
    intro ns c' st' h
    have hpure : (s.note ns).Gives st' fun _ st'' => post (.ok c') st'' := by
      refine ⟨(), ?_, hnote _ ns st' h⟩
      rw [note]
      cases s.journal <;> rfl
    have hanswer : (s.note ns >>= fun _ => pure c').Gives st' fun a st'' =>
        a = c' ∧ post (.ok c') st'' := hpure.bind fun _ _ h' => gives_pure ⟨rfl, h'⟩
    refine hanswer.outcome.mono ?_
    rintro r st'' ⟨a, rfl, rfl, h''⟩
    exact h''
  rw [commitChange]
  cases hmessage : s.config.messageFor c.path c.operation with
  | error e => exact ⟨_, rfl, hunfilled e hmessage⟩
  | ok message =>
      refine (gives_outcome _ st).outcome_bind ?_ ?_
      · rintro e _ ⟨hnever, -⟩
        cases hnever
      · rintro filled _ ⟨hfilled, rfl⟩
        cases hfilled
        refine (hcall message hmessage).outcome_bind (fun e st' h => h) ?_
        rintro (e | token) st' h
        · exact hnoted _ _ st' h
        · exact hnoted _ _ st' h

/-- **The course of a commit.** `row` says what may stand beside a change: itself and nothing logged, if it
is not pending or the commit has ended, or else what making it comes to. `known` is what is known of a
change before its turn, which the turns of others do not take away. -/
theorem gives_commitChanges_rows (s : Session σ) (ref : Option Text) (log : σ → List T)
    (known : Change → σ → Prop)
    (row : Option Failure → Change → Change × List T → Prop)
    (hkept : ∀ failure c st, known c st → c.status ≠ .pending ∨ failure.isSome → row failure c (c, []))
    (hstep : ∀ c st, c.status = .pending → known c st →
      (s.commitChange ref c).outcome.Gives st fun r st' =>
        (∃ logged, log st' = log st ++ logged ∧
          match r with
          | .ok c' => ∀ failure, row failure c (c', logged)
          | .error e => row (some e) c (c, logged)) ∧
        ∀ d, known d st → known d st')
    (cs : List Change) (st : σ) (h : ∀ c ∈ cs, known c st) :
    (s.commitChanges ref cs).Gives st fun answer st' =>
      ∃ rows : List (Change × List T), answer.1 = rows.map (·.1) ∧
        log st' = log st ++ rows.flatMap (·.2) ∧ List.Forall₂ (row answer.2) cs rows := by
  induction cs generalizing st with
  | nil => exact gives_pure ⟨[], rfl, (List.append_nil _).symm, .nil⟩
  | cons c cs ih =>
      have htail : ∀ st', (∀ d, known d st → known d st') → ∀ d ∈ cs, known d st' :=
        fun st' hkeep d hd => hkeep d (h d (List.mem_cons_of_mem c hd))
      -- the first is settled without an end to the commit in two ways, and the rest follows alike
      have hrest : ∀ (c' : Change) (logged : List T) (st₁ : σ), log st₁ = log st ++ logged →
          (∀ failure, row failure c (c', logged)) → (∀ d ∈ cs, known d st₁) →
          (s.commitChanges ref cs >>= fun answer => pure (c' :: answer.1, answer.2)).Gives st₁
            fun answer st' => ∃ rows : List (Change × List T), answer.1 = rows.map (·.1) ∧
              log st' = log st ++ rows.flatMap (·.2) ∧ List.Forall₂ (row answer.2) (c :: cs) rows := by
        intro c' logged st₁ hlog hrow hknown
        refine (ih st₁ hknown).bind ?_
        rintro ⟨cs', failure⟩ st' ⟨rows, rfl, hlog', hall⟩
        refine gives_pure ⟨(c', logged) :: rows, rfl, ?_, .cons (hrow failure) hall⟩
        rw [hlog', hlog, List.append_assoc, List.flatMap_cons]
      rw [commitChanges]
      by_cases hstatus : c.status = .pending
      · rw [if_pos hstatus]
        refine (hstep c st hstatus (h c List.mem_cons_self)).bind ?_
        rintro r st₁ ⟨⟨logged, hlog, hrow⟩, hkeep⟩
        cases r with
        | ok c' => exact hrest c' logged st₁ hlog hrow (htail st₁ hkeep)
        | error e =>
            -- the commit ends here, and the changes behind keep their places with nothing logged
            have hbehind : List.Forall₂ (row (some e)) cs (cs.map fun d => (d, [])) := by
              rw [List.forall₂_map_right_iff]
              refine List.forall₂_same.mpr fun d hd => ?_
              exact hkept _ d st (h d (List.mem_cons_of_mem c hd)) (.inr rfl)
            refine gives_pure ⟨(c, logged) :: cs.map fun d => (d, []), ?_, ?_, .cons hrow hbehind⟩
            · simp [Function.comp_def]
            · simp [hlog]
      · rw [if_neg hstatus]
        have hrow : ∀ failure, row failure c (c, []) := fun failure =>
          hkept failure c st (h c List.mem_cons_self) (.inl hstatus)
        exact hrest c [] st (List.append_nil _).symm hrow (htail st fun _ hd => hd)

end Emend.Session
