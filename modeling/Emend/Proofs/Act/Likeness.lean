import Emend.Proofs.Act
import Mathlib.Data.List.Forall2

/-!
# Actions that fare alike

Two runs are compared by how the states they leave, the failures they end in and the notes they make are
related. The rules follow the ways in which actions are put together. The answers of the first parts may
be related in any way that the second parts are content with.
-/

namespace Emend

/-- How the replies of two actions are compared. -/
structure Likeness (σ τ : Type) where
  state : σ → τ → Prop
  failure : Failure → Failure → Prop
  note : Note → Note → Prop

namespace Likeness

variable {σ τ α β γ δ : Type} {L : Likeness σ τ} {V : α → β → Prop} {W : γ → δ → Prop} {s : σ} {t : τ}

/-- Related answers, or related failures. -/
inductive Results (L : Likeness σ τ) (V : α → β → Prop) : Except Failure α → Except Failure β → Prop
  | ok {a : α} {b : β} (h : V a b) : Results L V (.ok a) (.ok b)
  | error {e e' : Failure} (h : L.failure e e') : Results L V (.error e) (.error e')

/-- Related replies. -/
structure Replies (L : Likeness σ τ) (V : α → β → Prop) (r : Reply σ α) (r' : Reply τ β) : Prop where
  result : L.Results V r.result r'.result
  state : L.state r.state r'.state
  notes : List.Forall₂ L.note r.notes r'.notes

theorem replies_ok (hstate : L.state s t) {a : α} {b : β} (h : V a b) :
    L.Replies V ⟨.ok a, s, []⟩ ⟨.ok b, t, []⟩ := ⟨.ok h, hstate, .nil⟩

theorem replies_fail (hstate : L.state s t) {e e' : Failure} (h : L.failure e e') :
    L.Replies V (Act.fail e s) (Act.fail e' t) := ⟨.error h, hstate, .nil⟩

theorem replies_note (hstate : L.state s t) {n n' : Note} (h : L.note n n') :
    L.Replies Eq (Act.note n s) (Act.note n' t) := ⟨.ok rfl, hstate, .cons h .nil⟩

theorem replies_set {s' : σ} {t' : τ} (h : L.state s' t') :
    L.Replies Eq (Act.set s' s) (Act.set t' t) := ⟨.ok rfl, h, .nil⟩

/-- What is done one after the other fares alike if each of the two does. -/
theorem Replies.bind {x : Act σ α} {y : Act τ β} {f : α → Act σ γ} {g : β → Act τ δ}
    (h : L.Replies V (x s) (y t))
    (hf : ∀ a b s' t', V a b → L.state s' t' → L.Replies W (f a s') (g b t')) :
    L.Replies W ((x >>= f) s) ((y >>= g) t) := by
  rw [Act.bind_apply, Act.bind_apply]
  cases hx : x s with
  | mk result state notes =>
      cases hy : y t with
      | mk result' state' notes' =>
          rw [hx, hy] at h
          obtain ⟨hresult, hstate, hnotes⟩ := h
          cases hresult with
          | error he => exact ⟨.error he, hstate, hnotes⟩
          | ok hV =>
              obtain ⟨hresult, hstate, hnotes'⟩ := hf _ _ state state' hV hstate
              exact ⟨hresult, hstate, List.rel_append hnotes hnotes'⟩

theorem Replies.map {x : Act σ α} {y : Act τ α} (h : L.Replies Eq (x s) (y t)) (f : α → γ) :
    L.Replies Eq ((f <$> x) s) ((f <$> y) t) :=
  h.bind fun _ _ _ _ hab hstate => replies_ok hstate (congrArg f hab)

/-- Results are compared by their answers and failures alone. -/
theorem Results.mono {L' : Likeness σ τ} {r : Except Failure α} {r' : Except Failure β}
    (h : L.Results V r r') (hfailure : ∀ e e', L.failure e e' → L'.failure e e') : L'.Results V r r' := by
  cases h with
  | ok h => exact .ok h
  | error h => exact .error (hfailure _ _ h)

end Likeness

end Emend
