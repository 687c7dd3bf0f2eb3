import Emend.Proofs.Act

/-!
# Failures that nobody reports

The program reports the failures of its input, of its configuration and of its stores. The others are of
a few kinds. `x.LeaksOnly ks` says that whatever the action `x` fails with is reported or of one of the
kinds `ks`, in every state; the rules follow the ways in which actions are put together, so that the kinds
of a long action are read off its parts.
-/

namespace Emend

/-- The kinds of failures that are not reported. -/
inductive Leak where
  /-- The operating system refuses, and not for want of an entry. -/
  | disk
  | unnamedSetting
  | reservedSetting
  | scalar
  | nesting
  | revision
  | times
  | home
  /-- A template asks for something that there is not. -/
  | template
  deriving DecidableEq, Repr

namespace Failure

/-- The kind of a failure that is not reported. -/
def leak? : Failure → Option Leak
  | store _ | noConfigFile _ | notText _ | fields _ | unacceptable _ _ | block _ => none
  | os e => if e.fault = .noEntry then none else some .disk
  | template e => if e.isMalformed then none else some .template
  | unnamedSetting => some .unnamedSetting
  | reservedSetting _ => some .reservedSetting
  | scalar _ => some .scalar
  | tooDeep _ => some .nesting
  | revision _ => some .revision
  | incomparableTimes => some .times
  | unknownHome => some .home

/-- A failure has a kind if it is not reported, and only then. -/
theorem leak?_eq_none_iff (e : Failure) : e.leak? = none ↔ e.isReported = true := by
  cases e <;> simp [leak?, isReported]

/-- The failure is reported or of one of the kinds. -/
def Among (ks : List Leak) (e : Failure) : Prop := ∀ k ∈ e.leak?, k ∈ ks

variable {ks : List Leak}

theorem among_of_isReported {e : Failure} (h : e.isReported = true) : e.Among ks := by
  intro k hk
  rw [(leak?_eq_none_iff e).mpr h] at hk
  cases hk

theorem among_of_mem {e : Failure} {k : Leak} (he : e.leak? = some k) (h : k ∈ ks) : e.Among ks := by
  intro k' hk'
  rw [he] at hk'
  cases hk'
  exact h

theorem among_os (h : .disk ∈ ks) (e : OsError) : (os e).Among ks := by
  intro k hk
  rw [leak?] at hk
  split at hk <;> cases hk
  exact h

theorem among_template (h : .template ∈ ks) (e : Template.Error) : (template e).Among ks := by
  intro k hk
  rw [leak?] at hk
  split at hk <;> cases hk
  exact h

/-- What is made of the failures of a part. -/
theorem among_of_mapError {ε α : Type} {r : Except ε α} {f : ε → Failure} {e : Failure}
    (he : r.mapError f = .error e) (h : ∀ x, (f x).Among ks) : e.Among ks := by
  cases r with
  | error x =>
      cases he
      exact h x
  | ok a => cases he

end Failure

namespace Act

variable {σ τ α β ε : Type} {ks : List Leak}

/-- What fails in two steps has failed in one of them. -/
theorem error_of_steps {r : Except ε α} {f : α → Except ε β} {e : ε} (h : (r >>= f) = .error e) :
    r = .error e ∨ ∃ a, r = .ok a ∧ f a = .error e := by
  cases r with
  | error e' =>
      cases h
      exact .inl rfl
  | ok a => exact .inr ⟨a, rfl, h⟩

/-- What can be decided of a failure is decided by finding the failure. -/
theorem exists_of_error {r : Except ε α} {P : ε → Prop} [DecidablePred P]
    (h : (match r with | .error e => decide (P e) | .ok _ => false) = true) :
    ∃ e, r = .error e ∧ P e := by
  cases r with
  | error e => exact ⟨e, rfl, of_decide_eq_true h⟩
  | ok a => cases h

/-- Whatever the action fails with is reported or of one of the kinds. -/
def LeaksOnly (ks : List Leak) (x : Act σ α) : Prop := ∀ s e, (x s).result = .error e → e.Among ks

theorem leaksOnly_pure (a : α) : (pure a : Act σ α).LeaksOnly ks := fun _ _ h => nomatch h

theorem leaksOnly_fail {e : Failure} (h : e.Among ks) : (fail e : Act σ α).LeaksOnly ks := by
  rintro _ _ ⟨⟩
  exact h

theorem leaksOnly_refuse (message : Text) (path : Option Text) :
    (refuse message path : Act σ α).LeaksOnly ks := leaksOnly_fail (Failure.among_of_isReported rfl)

theorem leaksOnly_ofExcept {r : Except Failure α} (h : ∀ e, r = .error e → e.Among ks) :
    (ofExcept r : Act σ α).LeaksOnly ks := fun _ e he => h e he

theorem leaksOnly_reading {f : σ → Except Failure α} (h : ∀ s e, f s = .error e → e.Among ks) :
    (reading f).LeaksOnly ks := h

theorem leaksOnly_get : (get : Act σ σ).LeaksOnly ks := fun _ _ h => nomatch h

theorem leaksOnly_set (s : σ) : (set s).LeaksOnly ks := fun _ _ h => nomatch h

theorem leaksOnly_modify (f : σ → σ) : (modify f).LeaksOnly ks := fun _ _ h => nomatch h

theorem leaksOnly_notes (ns : List Note) : (notes ns : Act σ Unit).LeaksOnly ks := fun _ _ h => nomatch h

theorem leaksOnly_note (n : Note) : (note n : Act σ Unit).LeaksOnly ks := fun _ _ h => nomatch h

theorem LeaksOnly.bind {x : Act σ α} {f : α → Act σ β} (hx : x.LeaksOnly ks)
    (hf : ∀ a, (f a).LeaksOnly ks) : (x >>= f).LeaksOnly ks := by
  intro s e he
  rcases error_of_bind he with hfirst | ⟨a, -, hsecond⟩
  · exact hx s e hfirst
  · exact hf a _ e hsecond

theorem LeaksOnly.map {x : Act σ α} (h : x.LeaksOnly ks) (f : α → β) : (f <$> x).LeaksOnly ks :=
  h.bind fun a => leaksOnly_pure (f a)

theorem LeaksOnly.recording {x : Act σ α} (h : x.LeaksOnly ks) (record : Note → σ → σ) :
    (x.recording record).LeaksOnly ks := h

theorem LeaksOnly.focus {x : Act σ α} (h : x.LeaksOnly ks) (get : τ → σ) (set : σ → τ → τ) :
    (x.focus get set).LeaksOnly ks := fun t => h (get t)

/-- Something is done for one after the other. -/
theorem leaksOnly_forM {f : β → Act σ PUnit} (h : ∀ b, (f b).LeaksOnly ks) (bs : List β) :
    (bs.forM f).LeaksOnly ks := by
  induction bs with
  | nil => exact leaksOnly_pure _
  | cons b bs ih => exact (h b).bind fun _ => ih

end Act

end Emend
