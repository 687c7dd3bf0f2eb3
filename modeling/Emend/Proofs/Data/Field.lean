import Emend.Data.Field

/-!
# Checks of fields

A check of several fields has a value exactly if each of them has one. What a record is made of can so be
read off the value that its check gives.
-/

namespace Emend.Checked

variable {α β γ : Type}

theorem map_map (f : α → β) (g : β → γ) (x : Checked α) :
    (x.map f).map g = x.map fun a => g (f a) := by
  cases x <;> rfl

theorem andAlso_valid (x : Checked (α → β)) (a : α) : x.andAlso (valid a) = x.map fun f => f a := by
  cases x <;> rfl

theorem map_eq_valid_iff {f : α → β} {x : Checked α} {b : β} :
    x.map f = valid b ↔ ∃ a, x = valid a ∧ f a = b := by
  cases x <;> simp [map]

theorem andAlso_eq_valid_iff {x : Checked (α → β)} {y : Checked α} {b : β} :
    x.andAlso y = valid b ↔ ∃ f a, x = valid f ∧ y = valid a ∧ f a = b := by
  cases x <;> cases y <;> simp [andAlso]

theorem inside_eq_valid_iff {x : Checked α} {step : Step} {a : α} :
    x.inside step = valid a ↔ x = valid a := by
  cases x <;> simp [inside]

theorem ofExcept_eq_valid_iff {x : Except Fault α} {a : α} : ofExcept x = valid a ↔ x = .ok a := by
  cases x <;> simp [ofExcept]

theorem ofExcept_inside_eq_valid_iff {x : Except Fault α} {step : Step} {a : α} :
    (ofExcept x).inside step = valid a ↔ x = .ok a :=
  inside_eq_valid_iff.trans ofExcept_eq_valid_iff

end Emend.Checked
