import Emend.Act
import Mathlib.Order.Defs.Unbundled

/-!
# What an action gives

`x.Gives s post` says that the action `x`, run in the state `s`, does not fail and that `post` holds of
its answer and the state it leaves; `x.Ensures s post` says the second only, for an action that may fail.
The rules follow the ways in which actions are put together, so that what a long action gives is read
off its parts. Notes are left out: nothing depends on them.

`x.Leaves s post` says of the state alone that `post` holds of it afterwards, whatever comes of `x`, and
`x.Keeps R` that every state is left for one that is related to it by `R`.

`Under` compares an action with one that runs on a part of its state.
-/

namespace Emend.Act

variable {σ τ α β : Type}

theorem bind_of_error {x : Act σ α} {f : α → Act σ β} {s s' : σ} {e : Failure} {ns : List Note}
    (hx : x s = ⟨.error e, s', ns⟩) : (x >>= f) s = ⟨.error e, s', ns⟩ := by
  rw [bind_apply, hx]

theorem bind_of_ok {x : Act σ α} {f : α → Act σ β} {s s' : σ} {a : α}
    (hx : x s = ⟨.ok a, s', []⟩) : (x >>= f) s = f a s' := by
  rw [bind_apply, hx]
  rfl

theorem bind_of_answer {x : Act σ α} {f : α → Act σ β} {s s' : σ} {a : α} {ns : List Note}
    (hx : x s = ⟨.ok a, s', ns⟩) :
    ((x >>= f) s).result = (f a s').result ∧ ((x >>= f) s).state = (f a s').state := by
  rw [bind_apply, hx]
  exact ⟨rfl, rfl⟩

/-- A result of two steps is a result of the second on one of the first. -/
theorem ok_of_bind {ε : Type} {r : Except ε α} {f : α → Except ε β} {b : β} (h : (r >>= f) = .ok b) :
    ∃ a, r = .ok a ∧ f a = .ok b := by
  cases r with
  | error e => cases h
  | ok a => exact ⟨a, rfl, h⟩

theorem ofExcept_bind {r : Except Failure α} {a : α} (hr : r = .ok a) (f : α → Act σ β) (s : σ) :
    (ofExcept r >>= f) s = f a s := by
  rw [hr]
  rfl

theorem ofExcept_bind_error {r : Except Failure α} {e : Failure} (hr : r = .error e)
    (f : α → Act σ β) (s : σ) : (ofExcept r >>= f) s = ⟨.error e, s, []⟩ := by
  rw [hr]
  rfl

theorem pure_bind_apply (a : α) (f : α → Act σ β) (s : σ) : ((pure a : Act σ α) >>= f) s = f a s := rfl

/-- What is made of an answer concerns the answer only. -/
theorem map_apply (f : α → β) (x : Act σ α) (s : σ) :
    (f <$> x) s = ⟨(x s).result.map f, (x s).state, (x s).notes⟩ := by
  change (x >>= fun a => pure (f a)) s = _
  rw [bind_apply]
  cases x s with
  | mk result state notes =>
      cases result with
      | error e => rfl
      | ok a => exact congrArg (Reply.mk _ _) (List.append_nil notes)

instance : LawfulMonad (Act σ) := LawfulMonad.mk' _
  (fun x => funext fun s => by
    rw [map_apply]
    cases x s with
    | mk result state notes => cases result <;> rfl)
  (fun _ _ => rfl)
  (fun x f g => funext fun s => by
    rw [bind_apply, bind_apply, bind_apply]
    cases x s with
    | mk result state notes =>
        cases result with
        | error e => rfl
        | ok a =>
            dsimp only
            rw [bind_apply]
            cases f a state with
            | mk result' state' notes' =>
                cases result' with
                | error e => rfl
                | ok b => simp only [List.append_assoc])

theorem get_bind (f : σ → Act σ β) (s : σ) : (get >>= f) s = f s s := rfl

theorem modify_bind (g : σ → σ) (f : Unit → Act σ β) (s : σ) : (modify g >>= f) s = f () (g s) := rfl

/-! ## Actions that look -/

/-- The action only looks at its state, and leaves no note. -/
def Reads (x : Act σ α) : Prop := ∀ s, ∃ r, x s = ⟨r, s, []⟩

theorem reads_pure (a : α) : (pure a : Act σ α).Reads := fun _ => ⟨_, rfl⟩

theorem reads_fail (e : Failure) : (fail e : Act σ α).Reads := fun _ => ⟨_, rfl⟩

theorem reads_ofExcept (r : Except Failure α) : (ofExcept r : Act σ α).Reads := fun _ => ⟨r, rfl⟩

theorem reads_get : (get : Act σ σ).Reads := fun _ => ⟨_, rfl⟩

theorem reads_reading (f : σ → Except Failure α) : (reading f).Reads := fun _ => ⟨_, rfl⟩

theorem Reads.bind {x : Act σ α} {f : α → Act σ β} (hx : x.Reads) (hf : ∀ a, (f a).Reads) :
    (x >>= f).Reads := by
  intro s
  obtain ⟨r, hxs⟩ := hx s
  cases r with
  | error e => exact ⟨_, bind_of_error hxs⟩
  | ok a =>
      rw [bind_of_ok hxs]
      exact hf a s

theorem Reads.outcome {x : Act σ α} (h : x.Reads) : x.outcome.Reads := by
  intro s
  obtain ⟨r, hxs⟩ := h s
  exact ⟨.ok r, by rw [Act.outcome, hxs]⟩

/-- Without notes there is nothing to record. -/
theorem Reads.recording {x : Act σ α} (h : x.Reads) (record : Note → σ → σ) :
    (x.recording record).Reads := by
  intro s
  obtain ⟨r, hxs⟩ := h s
  exact ⟨r, by rw [Act.recording, hxs]; rfl⟩

theorem Reads.focus {x : Act σ α} (h : x.Reads) {get : τ → σ} {set : σ → τ → τ}
    (hset : ∀ t, set (get t) t = t) : (x.focus get set).Reads := by
  intro t
  obtain ⟨r, hxs⟩ := h (get t)
  exact ⟨r, by rw [Act.focus, hxs]; exact congrArg (Reply.mk r · []) (hset t)⟩

/-! ## One answer -/

/-- Run in the state `s`, the action answers `a` and leaves `s'`. -/
def Yields (x : Act σ α) (s : σ) (a : α) (s' : σ) : Prop :=
  (x s).result = .ok a ∧ (x s).state = s'

theorem Yields.bind {x : Act σ α} {f : α → Act σ β} {s s' s'' : σ} {a : α} {b : β}
    (hx : x.Yields s a s') (hf : (f a).Yields s' b s'') : (x >>= f).Yields s b s'' := by
  obtain ⟨hresult, rfl⟩ := hx
  have happly : x s = ⟨.ok a, (x s).state, (x s).notes⟩ := by rw [← hresult]
  obtain ⟨hbind, hstate⟩ := bind_of_answer (f := f) happly
  exact ⟨hbind.trans hf.1, hstate.trans hf.2⟩

theorem Yields.outcome {x : Act σ α} {s s' : σ} {a : α} (h : x.Yields s a s') :
    x.outcome.Yields s (.ok a) s' := ⟨congrArg Except.ok h.1, h.2⟩

/-! ## Answers -/

/-- Run in the state `s`, the action answers, and `post` holds of the answer and the state left. -/
def Gives (x : Act σ α) (s : σ) (post : α → σ → Prop) : Prop :=
  ∃ a, (x s).result = .ok a ∧ post a (x s).state

theorem Gives.mono {x : Act σ α} {s : σ} {post post' : α → σ → Prop} (h : x.Gives s post)
    (himp : ∀ a s', post a s' → post' a s') : x.Gives s post' := by
  obtain ⟨a, hres, hpost⟩ := h
  exact ⟨a, hres, himp a _ hpost⟩

theorem Gives.and {x : Act σ α} {s : σ} {post post' : α → σ → Prop} (h : x.Gives s post)
    (h' : x.Gives s post') : x.Gives s fun a s' => post a s' ∧ post' a s' := by
  obtain ⟨a, hres, hpost⟩ := h
  obtain ⟨b, hres', hpost'⟩ := h'
  rw [hres] at hres'
  cases hres'
  exact ⟨a, hres, hpost, hpost'⟩

theorem gives_pure {a : α} {s : σ} {post : α → σ → Prop} (h : post a s) :
    (pure a : Act σ α).Gives s post := ⟨a, rfl, h⟩

/-- An action gives what the second part gives on whatever the first part gives. -/
theorem Gives.bind {x : Act σ α} {f : α → Act σ β} {s : σ} {mid : α → σ → Prop}
    {post : β → σ → Prop} (hx : x.Gives s mid)
    (hf : ∀ a s', mid a s' → (f a).Gives s' post) : (x >>= f).Gives s post := by
  obtain ⟨a, hres, hmid⟩ := hx
  obtain ⟨b, hres', hpost⟩ := hf a _ hmid
  have hbind : (x >>= f) s =
      ⟨(f a (x s).state).result, (f a (x s).state).state,
        (x s).notes ++ (f a (x s).state).notes⟩ := by
    rw [bind_apply]
    cases hxs : x s with
    | mk result state notes =>
        rw [hxs] at hres
        cases hres
        rfl
  rw [Gives, hbind]
  exact ⟨b, hres', hpost⟩

theorem gives_ofExcept {a : α} {s : σ} {r : Except Failure α} {post : α → σ → Prop}
    (hr : r = .ok a) (h : post a s) : (ofExcept r).Gives s post := ⟨a, hr, h⟩

theorem gives_notes {ns : List Note} {s : σ} {post : Unit → σ → Prop} (h : post () s) :
    (notes ns).Gives s post := ⟨(), rfl, h⟩

/-- An action that does not fail is its own outcome. -/
theorem Gives.outcome {x : Act σ α} {s : σ} {post : α → σ → Prop} (h : x.Gives s post) :
    x.outcome.Gives s fun r s' => ∃ a, r = .ok a ∧ post a s' := by
  obtain ⟨a, hres, hpost⟩ := h
  exact ⟨_, rfl, a, hres, hpost⟩

/-- Every action comes to something. -/
theorem gives_outcome (x : Act σ α) (s : σ) :
    x.outcome.Gives s fun r s' => r = (x s).result ∧ s' = (x s).state := ⟨_, rfl, rfl, rfl⟩

/-- What two actions come to, one after the other. -/
theorem Gives.outcome_bind {x : Act σ α} {f : α → Act σ β} {s : σ}
    {mid : Except Failure α → σ → Prop} {post : Except Failure β → σ → Prop}
    (hx : x.outcome.Gives s mid) (herror : ∀ e s', mid (.error e) s' → post (.error e) s')
    (hok : ∀ a s', mid (.ok a) s' → (f a).outcome.Gives s' post) : (x >>= f).outcome.Gives s post := by
  obtain ⟨r, hres, hmid⟩ := hx
  rw [Act.outcome] at hres hmid
  refine ⟨((x >>= f) s).result, rfl, ?_⟩
  rw [Act.outcome, bind_apply]
  cases hxs : x s with
  | mk result state notes =>
      rw [hxs] at hres hmid
      cases hres
      cases result with
      | error e => exact herror e state hmid
      | ok a =>
          obtain ⟨r, hres, hpost⟩ := hok a state hmid
          cases hres
          exact hpost

/-- An attempt comes to what the action comes to, refusals being answers. -/
theorem Gives.outcome_attempt {x : Act σ α} {s : σ} {mid : Except Failure α → σ → Prop}
    {post : Except Failure (Except StoreError α) → σ → Prop} (hx : x.outcome.Gives s mid)
    (hok : ∀ a s', mid (.ok a) s' → post (.ok (.ok a)) s')
    (hrefused : ∀ e s', mid (.error (.store e)) s' → post (.ok (.error e)) s')
    (herror : ∀ e s', (∀ e', e ≠ .store e') → mid (.error e) s' → post (.error e) s') :
    x.attempt.outcome.Gives s post := by
  obtain ⟨r, hres, hmid⟩ := hx
  rw [Act.outcome] at hres hmid
  refine ⟨(x.attempt s).result, rfl, ?_⟩
  rw [Act.outcome, attempt]
  cases hxs : x s with
  | mk result state notes =>
      rw [hxs] at hres hmid
      cases hres
      cases result with
      | ok a => exact hok a state hmid
      | error e =>
          cases e with
          | store e => exact hrefused e state hmid
          | _ => exact herror _ state (fun _ => nofun) hmid

/-- What is made of an answer is of no account to a failure. -/
theorem Gives.outcome_map {x : Act σ α} {f : α → β} {s : σ} {post : Except Failure β → σ → Prop}
    (h : x.outcome.Gives s fun r s' => post (r.map f) s') : (f <$> x).outcome.Gives s post := by
  obtain ⟨r, hres, hpost⟩ := h
  cases hres
  refine ⟨_, rfl, ?_⟩
  rw [Act.outcome, map_apply]
  exact hpost

/-- What is made of an answer is of no account to a refusal. -/
theorem Gives.attempt_map {x : Act σ α} {f : α → β} {s : σ} {post : Except StoreError β → σ → Prop}
    (h : x.attempt.Gives s fun answer s' => post (answer.map f) s') :
    (f <$> x).attempt.Gives s post := by
  obtain ⟨answer, hres, hpost⟩ := h
  rw [attempt] at hres hpost
  rw [Gives, attempt, map_apply]
  cases hxs : x s with
  | mk result state notes =>
      rw [hxs] at hres hpost
      cases result with
      | ok a =>
          cases hres
          exact ⟨_, rfl, hpost⟩
      | error e =>
          cases e with
          | store e =>
              cases hres
              exact ⟨_, rfl, hpost⟩
          | _ => cases hres

theorem gives_attempt_of_ok {x : Act σ α} {s s' : σ} {a : α} {ns : List Note}
    {post : Except StoreError α → σ → Prop} (hx : x s = ⟨.ok a, s', ns⟩) (h : post (.ok a) s') :
    x.attempt.Gives s post := by
  rw [Gives, attempt, hx]
  exact ⟨_, rfl, h⟩

theorem gives_attempt_of_refused {x : Act σ α} {s s' : σ} {e : StoreError} {ns : List Note}
    {post : Except StoreError α → σ → Prop} (hx : x s = ⟨.error (.store e), s', ns⟩)
    (h : post (.error e) s') : x.attempt.Gives s post := by
  rw [Gives, attempt, hx]
  exact ⟨_, rfl, h⟩

/-- If the action, run in the state `s`, answers, then `post` holds of the answer and the state left. -/
def Ensures (x : Act σ α) (s : σ) (post : α → σ → Prop) : Prop :=
  ∀ a, (x s).result = .ok a → post a (x s).state

theorem Gives.ensures {x : Act σ α} {s : σ} {post : α → σ → Prop} (h : x.Gives s post) :
    x.Ensures s post := by
  obtain ⟨a, hres, hpost⟩ := h
  intro b hb
  rw [hres] at hb
  cases hb
  exact hpost

theorem Gives.and_ensures {x : Act σ α} {s : σ} {post post' : α → σ → Prop} (h : x.Gives s post)
    (h' : x.Ensures s post') : x.Gives s fun a s' => post a s' ∧ post' a s' := by
  obtain ⟨a, hres, hpost⟩ := h
  exact ⟨a, hres, hpost, h' a hres⟩

theorem Ensures.mono {x : Act σ α} {s : σ} {post post' : α → σ → Prop} (h : x.Ensures s post)
    (himp : ∀ a s', post a s' → post' a s') : x.Ensures s post' :=
  fun a hres => himp a _ (h a hres)

theorem ensures_trivial (x : Act σ α) (s : σ) : x.Ensures s fun _ _ => True := fun _ _ => trivial

theorem ensures_pure {a : α} {s : σ} {post : α → σ → Prop} (h : post a s) :
    (pure a : Act σ α).Ensures s post := (gives_pure h).ensures

theorem ensures_ofExcept (r : Except Failure α) (s : σ) :
    (ofExcept r).Ensures s fun a s' => r = .ok a ∧ s' = s := fun _ h => ⟨h, rfl⟩

theorem ensures_get (s : σ) : get.Ensures s fun a s' => a = s ∧ s' = s := by
  rintro a ⟨⟩
  exact ⟨rfl, rfl⟩

theorem ensures_modify (f : σ → σ) (s : σ) : (modify f).Ensures s fun _ s' => s' = f s := fun _ _ => rfl

/-- An attempt that answers tells what the action came to. -/
theorem ensures_attempt (x : Act σ α) (s : σ) :
    x.attempt.Ensures s fun answer s' => (x s).result = answer.mapError .store ∧ s' = (x s).state := by
  intro answer hanswer
  rw [attempt] at hanswer ⊢
  cases hxs : x s with
  | mk result state notes =>
      rw [hxs] at hanswer
      cases result with
      | ok a =>
          cases hanswer
          exact ⟨rfl, rfl⟩
      | error e =>
          cases e with
          | store e =>
              cases hanswer
              exact ⟨rfl, rfl⟩
          | _ => cases hanswer

/-- So what the action comes to is ensured of the attempt. -/
theorem Gives.ensures_attempt {x : Act σ α} {s : σ} {post : Except Failure α → σ → Prop}
    (h : x.outcome.Gives s post) :
    x.attempt.Ensures s fun answer s' => post (answer.mapError .store) s' := by
  obtain ⟨r, hres, hpost⟩ := h
  cases hres
  refine (Act.ensures_attempt x s).mono ?_
  rintro answer _ ⟨hanswer, rfl⟩
  rw [← hanswer]
  exact hpost

/-- What answers has answered in each of its parts. -/
theorem Ensures.bind {x : Act σ α} {f : α → Act σ β} {s : σ} {mid : α → σ → Prop}
    {post : β → σ → Prop} (hx : x.Ensures s mid)
    (hf : ∀ a s', mid a s' → (f a).Ensures s' post) : (x >>= f).Ensures s post := by
  intro b hb
  rw [bind_apply] at hb ⊢
  cases hxs : x s with
  | mk result state notes =>
      rw [hxs] at hb
      cases result with
      | error e => cases hb
      | ok a =>
          have hmid := hx a (congrArg Reply.result hxs)
          rw [hxs] at hmid
          exact hf a state hmid b hb

/-! ## Failures -/

/-- What fails has failed in one of its parts. -/
theorem error_of_bind {x : Act σ α} {f : α → Act σ β} {s : σ} {e : Failure}
    (h : ((x >>= f) s).result = .error e) :
    (x s).result = .error e ∨
      ∃ a, (x s).result = .ok a ∧ (f a (x s).state).result = .error e := by
  rw [bind_apply] at h
  cases hxs : x s with
  | mk result state notes =>
      rw [hxs] at h
      cases result with
      | error e' =>
          cases h
          exact .inl rfl
      | ok a => exact .inr ⟨a, rfl, h⟩

/-- An attempt fails as the action does, but not by a refusal. -/
theorem error_of_attempt {x : Act σ α} {s : σ} {e : Failure} (h : (x.attempt s).result = .error e) :
    (x s).result = .error e ∧ ∀ r, e ≠ .store r := by
  rw [attempt] at h
  cases hxs : x s with
  | mk result state notes =>
      rw [hxs] at h
      cases result with
      | ok a => cases h
      | error e' =>
          cases e' with
          | store r => cases h
          | _ =>
              cases h
              exact ⟨rfl, fun _ => nofun⟩

/-- What can be decided of an answer is decided by finding the answer. -/
theorem exists_of_answer {ε : Type} {r : Except ε α} {P : α → Prop} [DecidablePred P]
    (h : r.toOption.any (fun a => decide (P a)) = true) : ∃ a, r = .ok a ∧ P a := by
  cases r with
  | error e => cases h
  | ok a => exact ⟨a, rfl, of_decide_eq_true h⟩

/-! ## What is left in any case -/

/-- Run in the state `s`, the action leaves a state of which `post` holds, whatever comes of it. -/
def Leaves (x : Act σ α) (s : σ) (post : σ → Prop) : Prop := post (x s).state

/-- A second action that is not come to has nothing to do. -/
theorem Leaves.bind {x : Act σ α} {f : α → Act σ β} {s : σ} {mid post : σ → Prop}
    (hx : x.Leaves s mid) (hstop : ∀ s', mid s' → post s')
    (hf : ∀ a s', mid s' → (f a).Leaves s' post) : (x >>= f).Leaves s post := by
  rw [Leaves] at hx ⊢
  rw [bind_apply]
  cases hxs : x s with
  | mk result state notes =>
      rw [hxs] at hx
      cases result with
      | error e => exact hstop state hx
      | ok a => exact hf a state hx

/-- What notes do not change is left also when they are recorded. -/
theorem Leaves.recording {x : Act σ α} {s : σ} {post : σ → Prop} (h : x.Leaves s post)
    {record : Note → σ → σ} (hrecord : ∀ n s', post s' → post (record n s')) :
    (x.recording record).Leaves s post := by
  have hfold : ∀ (ns : List Note) (s' : σ), post s' → post (ns.foldl (fun s n => record n s) s') := by
    intro ns
    induction ns with
    | nil => exact fun s' h => h
    | cons n ns ih => exact fun s' h => ih _ (hrecord n s' h)
  exact hfold (x s).notes _ h

/-- The action leaves every state for one that is related to it. -/
def Keeps (R : σ → σ → Prop) (x : Act σ α) : Prop := ∀ s, x.Leaves s (R s)

section

variable {R : σ → σ → Prop}

theorem Keeps.bind [IsTrans σ R] {x : Act σ α} {f : α → Act σ β} (hx : x.Keeps R)
    (hf : ∀ a, (f a).Keeps R) : (x >>= f).Keeps R :=
  fun s => (hx s).bind (fun _ h => h) fun a s' h => trans_of R h (hf a s')

/-- An action that only looks keeps everything. -/
theorem Reads.keeps [Std.Refl R] {x : Act σ α} (h : x.Reads) : x.Keeps R := by
  intro s
  obtain ⟨r, hxs⟩ := h s
  rw [Leaves, hxs]
  exact refl_of R s

theorem keeps_note [Std.Refl R] (n : Note) : (note n : Act σ Unit).Keeps R := fun s => refl_of R s

theorem keeps_notes [Std.Refl R] (ns : List Note) : (notes ns : Act σ Unit).Keeps R :=
  fun s => refl_of R s

theorem Keeps.attempt {x : Act σ α} (h : x.Keeps R) : x.attempt.Keeps R := by
  intro s
  have hs := h s
  rw [Leaves] at hs ⊢
  rw [Act.attempt]
  cases hxs : x s with
  | mk result state notes =>
      rw [hxs] at hs
      cases result with
      | ok a => exact hs
      | error e => cases e <;> exact hs

/-- Notes may be recorded if that is kept to as well. -/
theorem Keeps.recording [IsTrans σ R] {x : Act σ α} (h : x.Keeps R) {record : Note → σ → σ}
    (hrecord : ∀ n s, R s (record n s)) : (x.recording record).Keeps R :=
  fun s => (h s).recording fun n s' hR => trans_of R hR (hrecord n s')

/-- On a part of a larger state. -/
theorem Keeps.focus {S : τ → τ → Prop} {x : Act σ α} (h : x.Keeps R) {get : τ → σ}
    {set : σ → τ → τ} (hset : ∀ t s', R (get t) s' → S t (set s' t)) : (x.focus get set).Keeps S :=
  fun t => hset t _ (h (get t))

end

/-! ## Actions on a part of the state -/

/-- The action does on the first part of its state what `y` does, and answers the same. -/
def Under (x : Act (σ × τ) α) (y : Act σ α) : Prop :=
  ∀ s t, (x (s, t)).result = (y s).result ∧ (x (s, t)).state.1 = (y s).state ∧
    (x (s, t)).notes = (y s).notes

theorem under_pure (a : α) : (pure a : Act (σ × τ) α).Under (pure a) := fun _ _ => ⟨rfl, rfl, rfl⟩

theorem under_fail (e : Failure) : (fail e : Act (σ × τ) α).Under (fail e) :=
  fun _ _ => ⟨rfl, rfl, rfl⟩

theorem under_ofExcept (r : Except Failure α) : (ofExcept r : Act (σ × τ) α).Under (ofExcept r) :=
  fun _ _ => ⟨rfl, rfl, rfl⟩

theorem under_notes (ns : List Note) : (notes ns : Act (σ × τ) Unit).Under (notes ns) :=
  fun _ _ => ⟨rfl, rfl, rfl⟩

theorem Under.bind {x : Act (σ × τ) α} {y : Act σ α} {f : α → Act (σ × τ) β} {g : α → Act σ β}
    (hx : x.Under y) (hf : ∀ a, (f a).Under (g a)) : (x >>= f).Under (y >>= g) := by
  intro s t
  obtain ⟨hres, hstate, hnotes⟩ := hx s t
  rw [bind_apply, bind_apply]
  cases hxs : x (s, t) with
  | mk result state notes =>
      cases hys : y s with
      | mk result' state' notes' =>
          rw [hxs, hys] at hres hstate hnotes
          obtain ⟨s', t'⟩ := state
          cases hres
          cases hstate
          cases hnotes
          cases result with
          | error e => exact ⟨rfl, rfl, rfl⟩
          | ok a =>
              obtain ⟨hres, hstate, hnotes⟩ := hf a state' t'
              exact ⟨hres, hstate, congrArg (notes ++ ·) hnotes⟩

theorem Under.map {x : Act (σ × τ) α} {y : Act σ α} (h : x.Under y) (f : α → β) :
    (f <$> x).Under (f <$> y) := h.bind fun a => under_pure (f a)

theorem Under.attempt {x : Act (σ × τ) α} {y : Act σ α} (h : x.Under y) :
    x.attempt.Under y.attempt := by
  intro s t
  obtain ⟨hres, hstate, hnotes⟩ := h s t
  rw [Act.attempt, Act.attempt]
  cases hxs : x (s, t) with
  | mk result state notes =>
      cases hys : y s with
      | mk result' state' notes' =>
          rw [hxs, hys] at hres hstate hnotes
          cases hres
          cases result with
          | ok a => exact ⟨rfl, hstate, hnotes⟩
          | error e => cases e <;> exact ⟨rfl, hstate, hnotes⟩

theorem Under.outcome {x : Act (σ × τ) α} {y : Act σ α} (h : x.Under y) :
    x.outcome.Under y.outcome := by
  intro s t
  obtain ⟨hres, hstate, hnotes⟩ := h s t
  exact ⟨congrArg Except.ok hres, hstate, hnotes⟩

/-- Records leave alone what is outside the part of the state that they are made in. -/
theorem Under.recording {x : Act (σ × τ) α} {y : Act σ α} (h : x.Under y) (record : Note → σ → σ) :
    (x.recording fun n s => (record n s.1, s.2)).Under (y.recording record) := by
  intro s t
  obtain ⟨hres, hstate, hnotes⟩ := h s t
  have hfold : ∀ (ns : List Note) (s : σ × τ),
      (ns.foldl (fun s n => (record n s.1, s.2)) s).1 = ns.foldl (fun s n => record n s) s.1 := by
    intro ns
    induction ns with
    | nil => intro s; rfl
    | cons n ns ih => intro s; exact ih _
  refine ⟨hres, ?_, rfl⟩
  refine (hfold _ _).trans ?_
  rw [hstate, hnotes]
  rfl

end Emend.Act
