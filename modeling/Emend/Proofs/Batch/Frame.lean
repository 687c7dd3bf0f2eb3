import Emend.Proofs.Batch.Watched
import Emend.Proofs.Store.MapLike

/-!
# What a watched session leaves alone

Two things are followed through a session whose store is like a map. `Sound` holds of every state: the
store is one in use, and each failed call is one that can fail. `Frame` compares two states: outside
the files worked on, nothing is written and no call fails.
-/

namespace Emend

variable {σ : Type} {store : Store σ} {inv : σ → Prop} {files : σ → Text → Option Text}
  {out : StoreMethod → Text → Prop}

/-- The store is in use, and the calls that failed are among those that can. -/
structure Sound (inv : σ → Prop) (out : StoreMethod → Text → Prop) (s : σ × List Call) : Prop where
  state : inv s.1
  calls : ∀ c ∈ s.2, c.isAnswered = false → out c.method c.path

/-- From one state to the other only files at the paths `ps` were written or had a call fail. -/
structure Frame (files : σ → Text → Option Text) (ps : List Text) (s s' : σ × List Call) : Prop where
  files : ∀ p ∉ ps, files s'.1 p = files s.1 p
  calls : ∀ p ∉ ps, FailedAt s'.2 p ↔ FailedAt s.2 p

theorem Frame.refl (ps : List Text) (s : σ × List Call) : Frame files ps s s :=
  ⟨fun _ _ => rfl, fun _ _ => Iff.rfl⟩

theorem Frame.trans {ps : List Text} {s s' s'' : σ × List Call} (h : Frame files ps s s')
    (h' : Frame files ps s' s'') : Frame files ps s s'' :=
  ⟨fun p hp => (h'.files p hp).trans (h.files p hp), fun p hp => (h'.calls p hp).trans (h.calls p hp)⟩

theorem Frame.mono {ps ps' : List Text} {s s' : σ × List Call} (h : Frame files ps s s')
    (hsub : ps ⊆ ps') : Frame files ps' s s' :=
  ⟨fun p hp => h.files p fun hmem => hp (hsub hmem), fun p hp => h.calls p fun hmem => hp (hsub hmem)⟩

/-- Work on one file and then on others. -/
theorem Frame.cons {p : Text} {ps : List Text} {s s' s'' : σ × List Call}
    (h : Frame files [p] s s') (h' : Frame files ps s' s'') : Frame files (p :: ps) s s'' := by
  refine (h.mono fun q hq => ?_).trans (h'.mono fun q hq => List.mem_cons_of_mem p hq)
  rw [List.mem_singleton.mp hq]
  exact List.mem_cons_self

/-- States with the same texts and calls. -/
theorem Frame.of_eq {ps : List Text} {s s' : σ × List Call} (hfiles : files s'.1 = files s.1)
    (hcalls : s'.2 = s.2) : Frame files ps s s' :=
  ⟨fun p _ => congrFun hfiles p, fun _ _ => by rw [hcalls]⟩

/-! ## Calls -/

/-- A call that was answered, or that can fail, leaves the record sound. -/
theorem Sound.append {s : σ × List Call} (h : Sound inv out s) {st : σ} {c : Call} (hst : inv st)
    (hc : c.isAnswered = false → out c.method c.path) : Sound inv out (st, s.2 ++ [c]) := by
  refine ⟨hst, fun d hd hfailed => ?_⟩
  rcases List.mem_append.mp hd with hd | hd
  · exact h.calls d hd hfailed
  · rw [List.mem_singleton.mp hd] at hfailed ⊢
    exact hc hfailed

/-- A call for a path leaves the others alone if it changes no text but the one there. -/
theorem Frame.append {s : σ × List Call} {st : σ} {c : Call}
    (hst : ∀ p, p ≠ c.path → files st p = files s.1 p) : Frame files [c.path] s (st, s.2 ++ [c]) := by
  refine ⟨fun p hp => hst p fun h => hp (h ▸ List.mem_singleton_self _), fun p hp => ?_⟩
  rw [failedAt_append]
  constructor
  · rintro (h | ⟨h, -⟩)
    · exact h
    · exact absurd (h ▸ List.mem_singleton_self _) hp
  · exact .inl

/-- After a call that gives its file a text or is refused. -/
theorem stored_of_answer {α : Type} {method : StoreMethod} {path : Text} {t : Option Text}
    {s s' : σ × List Call} {answer : Except StoreError α} (h : Sound inv out s) (hinv : inv s'.1)
    (hcall : s'.2 = s.2 ++ [⟨method, path, answer.isOk⟩])
    (hanswer : match answer with
      | .ok _ => files s'.1 = Function.update (files s.1) path t
      | .error _ => files s'.1 = files s.1 ∧ out method path) :
    Sound inv out s' ∧ Frame files [path] s s' ∧
      match answer with
      | .ok _ => files s'.1 path = t ∧ (FailedAt s'.2 path ↔ FailedAt s.2 path)
      | .error _ => files s'.1 path = files s.1 path ∧ FailedAt s'.2 path := by
  obtain ⟨st, calls⟩ := s'
  dsimp only at hinv hcall hanswer
  subst hcall
  cases answer with
  | ok a =>
      refine ⟨h.append hinv fun hfailed => Bool.noConfusion hfailed, ?_, ?_, ?_⟩
      · refine Frame.append (c := ⟨method, path, true⟩) fun p hp => ?_
        rw [hanswer]
        exact Function.update_of_ne hp _ _
      · rw [hanswer]
        exact Function.update_self _ _ _
      · exact failedAt_append_answered rfl
  | error e =>
      refine ⟨h.append hinv fun _ => hanswer.2, ?_, ?_, ?_⟩
      · exact Frame.append (c := ⟨method, path, false⟩) fun p _ => congrFun hanswer.1 p
      · exact congrFun hanswer.1 path
      · exact failedAt_append_failed (c := ⟨method, path, false⟩) rfl

/-! ## Notes -/

namespace Session

/-- What the session records in its journal changes no file. -/
def IsQuiet (s : Session σ) (inv : σ → Prop) (files : σ → Text → Option Text) : Prop :=
  ∀ record ∈ s.journal, ∀ n st, inv st → inv (record n st) ∧ files (record n st) = files st

theorem recorded_of_isQuiet {record : Note → σ → σ}
    (hrecord : ∀ n st, inv st → inv (record n st) ∧ files (record n st) = files st) (ns : List Note)
    (st : σ × List Call) (h : inv st.1) :
    inv (ns.foldl (fun s n => (record n s.1, s.2)) st).1 ∧
      files (ns.foldl (fun s n => (record n s.1, s.2)) st).1 = files st.1 ∧
      (ns.foldl (fun s n => (record n s.1, s.2)) st).2 = st.2 := by
  induction ns generalizing st with
  | nil => exact ⟨h, rfl, rfl⟩
  | cons n ns ih =>
      obtain ⟨hinv, hfiles⟩ := hrecord n st.1 h
      obtain ⟨hinv', hfiles', hcalls⟩ := ih (record n st.1, st.2) hinv
      exact ⟨hinv', hfiles'.trans hfiles, hcalls⟩

/-- A note of a quiet session leaves texts and calls as they are. -/
theorem gives_note {s : Session σ} (hquiet : s.IsQuiet inv files) (ns : List Note)
    {st : σ × List Call} (h : Sound inv out st) :
    (s.watched.note ns).Gives st fun _ st' =>
      Sound inv out st' ∧ files st'.1 = files st.1 ∧ st'.2 = st.2 := by
  rw [note, watched]
  cases hjournal : s.journal with
  | none => exact Act.gives_notes ⟨h, rfl, rfl⟩
  | some record =>
      obtain ⟨hinv, hfiles, hcalls⟩ :=
        recorded_of_isQuiet (hquiet record hjournal) ns st h.state
      exact ⟨(), rfl, ⟨hinv, hcalls ▸ h.calls⟩, hfiles, hcalls⟩

end Session

end Emend
