import Emend.Proofs.Act
import Emend.Store.Memory

/-!
# Watched stores

A watched store does what the store does and keeps, beside the store's state, a record of the calls
made so far and of whether each was answered. The record is only there to be spoken about: what is
done and answered does not depend on it.
-/

namespace Emend

variable {σ α : Type}

/-- A call of a store that is over. A call that is not answered has failed. -/
structure Call where
  method : StoreMethod
  path : Text
  isAnswered : Bool
  deriving DecidableEq, Repr

/-- Among the calls is one for the path that failed. -/
def FailedAt (calls : List Call) (p : Text) : Prop := ∃ c ∈ calls, c.path = p ∧ c.isAnswered = false

instance (calls : List Call) (p : Text) : Decidable (FailedAt calls p) :=
  inferInstanceAs (Decidable (∃ c ∈ calls, _))

theorem not_failedAt_nil (p : Text) : ¬ FailedAt [] p := fun ⟨_, hc, _⟩ => List.not_mem_nil hc

/-- Another call changes what is said about its own path only. -/
theorem failedAt_append {calls : List Call} {c : Call} {p : Text} :
    FailedAt (calls ++ [c]) p ↔ FailedAt calls p ∨ c.path = p ∧ c.isAnswered = false := by
  constructor
  · rintro ⟨d, hd, hfailed⟩
    rcases List.mem_append.mp hd with hd | hd
    · exact .inl ⟨d, hd, hfailed⟩
    · rw [List.mem_singleton.mp hd] at hfailed
      exact .inr hfailed
  · rintro (⟨d, hd, hfailed⟩ | hfailed)
    · exact ⟨d, List.mem_append_left _ hd, hfailed⟩
    · exact ⟨c, List.mem_append_right _ (List.mem_singleton_self c), hfailed⟩

theorem failedAt_append_answered {calls : List Call} {c : Call} {p : Text} (hc : c.isAnswered = true) :
    FailedAt (calls ++ [c]) p ↔ FailedAt calls p := by
  rw [failedAt_append, hc]
  exact or_iff_left fun h => Bool.noConfusion h.2

theorem failedAt_append_failed {calls : List Call} {c : Call} (hc : c.isAnswered = false) :
    FailedAt (calls ++ [c]) c.path := failedAt_append.mpr (.inr ⟨rfl, hc⟩)

/-- The action as a call that is recorded when it is over. -/
def Act.watched (method : StoreMethod) (path : Text) (x : Act σ α) : Act (σ × List Call) α := fun s =>
  let r := x s.1
  ⟨r.result, (r.state, s.2 ++ [⟨method, path, r.result.isOk⟩]), r.notes⟩

theorem Act.under_watched (method : StoreMethod) (path : Text) (x : Act σ α) :
    (x.watched method path).Under x := fun _ _ => ⟨rfl, rfl, rfl⟩

/-- A watched call that is attempted gives what it gives unwatched, and its record says whether it was
answered. -/
theorem Act.Gives.watched {x : Act σ α} {s : σ} {post : Except StoreError α → σ → Prop}
    (h : x.attempt.Gives s post) (method : StoreMethod) (path : Text) (calls : List Call) :
    (x.watched method path).attempt.Gives (s, calls) fun answer s' =>
      post answer s'.1 ∧ s'.2 = calls ++ [⟨method, path, answer.isOk⟩] := by
  obtain ⟨answer, hres, hpost⟩ := h
  rw [Act.attempt] at hres hpost
  rw [Act.Gives, Act.attempt, Act.watched]
  cases hxs : x s with
  | mk result state notes =>
      rw [hxs] at hres hpost
      cases result with
      | ok a =>
          cases hres
          exact ⟨_, rfl, hpost, rfl⟩
      | error e =>
          -- an attempt answers refusals and passes on every other failure
          cases e with
          | store e =>
              cases hres
              exact ⟨_, rfl, hpost, rfl⟩
          | _ => cases hres

/-- The store with a record of the calls made to it. -/
def Store.watched (store : Store σ) : Store (σ × List Call) where
  describe := store.describe
  fetch path ref := (store.fetch path ref).watched .fetch path
  write path text token ref message := (store.write path text token ref message).watched .write path
  delete path token ref message := (store.delete path token ref message).watched .delete path

end Emend
