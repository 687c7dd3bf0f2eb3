import Emend.Text.Blank
import Emend.Text.Case
import Mathlib.Data.List.Basic

/-!
# Occurrences up to case

A pattern matches a stretch of text up to case when the two have the same folds, so a search that
disregards case is a search for the folded pattern in the folded text. `OccursIn` says that there is
a match somewhere. A letter that the pattern does not have cuts the text into two halves that can be
searched apart (`occursIn_append_cons`), and so does the first letter of a pattern that has it
nowhere else (`occursIn_append_head`).
-/

namespace Emend.Text

/-! ## Stretches of any list -/

section Infix

variable {α : Type} {x : α}

/-- A match that cannot run over `x` ends before it. -/
theorem prefix_of_prefix_append_cons {p a b : List α} (hx : x ∉ p) (h : p <+: a ++ x :: b) :
    p <+: a := by
  induction a generalizing p with
  | nil =>
      cases p with
      | nil => exact List.prefix_rfl
      | cons y p =>
          rw [List.nil_append, List.cons_prefix_cons] at h
          exact absurd (by simp [h.1]) hx
  | cons c a ih =>
      cases p with
      | nil => exact List.nil_prefix
      | cons y p =>
          rw [List.cons_append, List.cons_prefix_cons] at h
          rw [List.cons_prefix_cons]
          exact ⟨h.1, ih (List.not_mem_of_not_mem_cons hx) h.2⟩

theorem infix_append_cons {p a b : List α} (hx : x ∉ p) :
    p <:+: a ++ x :: b ↔ p <:+: a ∨ p <:+: b := by
  constructor
  · intro h
    induction a with
    | nil =>
        rw [List.nil_append, List.infix_cons_iff] at h
        exact h.imp_left fun h => (prefix_of_prefix_append_cons hx h).isInfix
    | cons c a ih =>
        rw [List.cons_append, List.infix_cons_iff] at h
        rcases h with h | h
        · exact Or.inl (prefix_of_prefix_append_cons (a := c :: a) hx h).isInfix
        · exact (ih h).imp_left List.infix_cons
  · rintro (h | h)
    · exact List.infix_append_of_infix_left h
    · exact List.infix_append_of_infix_right (List.infix_cons h)

/-- A match that has `x` at its front only does not run over another `x`. -/
theorem infix_append_head {q a b : List α} (hx : x ∉ q) :
    (x :: q) <:+: a ++ x :: b ↔ (x :: q) <:+: a ∨ (x :: q) <:+: x :: b := by
  constructor
  · intro h
    induction a with
    | nil => exact Or.inr h
    | cons c a ih =>
        rw [List.cons_append, List.infix_cons_iff, List.cons_prefix_cons] at h
        rcases h with ⟨rfl, h⟩ | h
        · have hq : q <+: a := prefix_of_prefix_append_cons hx h
          exact Or.inl (List.cons_prefix_cons.mpr ⟨rfl, hq⟩).isInfix
        · exact (ih h).imp_left List.infix_cons
  · rintro (h | h)
    · exact List.infix_append_of_infix_left h
    · exact List.infix_append_of_infix_right h

end Infix

/-! ## Occurrences of a pattern in a text -/

/-- The text by classes of letters. -/
def folds (t : Text) : List Nat := t.map fold

@[simp] theorem folds_nil : folds [] = [] := rfl

@[simp] theorem folds_cons (c : Char) (t : Text) : folds (c :: t) = fold c :: folds t := rfl

@[simp] theorem folds_append (s t : Text) : folds (s ++ t) = folds s ++ folds t := List.map_append

/-- The pattern stands somewhere in the text, up to case. -/
def OccursIn (p t : Text) : Prop := folds p <:+: folds t

instance (p t : Text) : Decidable (OccursIn p t) :=
  inferInstanceAs (Decidable (folds p <:+: folds t))

theorem afterCaseless?_eq_some_iff {p t r : Text} :
    afterCaseless? p t = some r ↔ ∃ u, t = u ++ r ∧ folds u = folds p := by
  induction p generalizing t with
  | nil => simp [afterCaseless?, folds, eq_comm]
  | cons a p ih =>
      cases t with
      | nil => simp [afterCaseless?, folds]
      | cons c t =>
          rw [afterCaseless?]
          constructor
          · intro h
            split at h
            · rename_i hsame
              obtain ⟨u, rfl, hu⟩ := ih.mp h
              rw [sameLetter, beq_iff_eq] at hsame
              exact ⟨c :: u, rfl, by rw [folds_cons, folds_cons, hu, hsame]⟩
            · cases h
          · rintro ⟨u, hu, hfolds⟩
            cases u with
            | nil => simp at hfolds
            | cons d u =>
                obtain ⟨rfl, rfl⟩ := List.cons.inj hu
                obtain ⟨hsame, hrest⟩ := List.cons.inj hfolds
                rw [if_pos (by rw [sameLetter, beq_iff_eq, hsame])]
                exact ih.mpr ⟨u, rfl, hrest⟩

theorem afterCaseless?_of_folds {p u : Text} (h : folds u = folds p) (r : Text) :
    afterCaseless? p (u ++ r) = some r :=
  afterCaseless?_eq_some_iff.mpr ⟨u, rfl, h⟩

/-- What does not even occur is not matched at the front. -/
theorem afterCaseless?_eq_none {p t : Text} (h : ¬ folds p <+: folds t) :
    afterCaseless? p t = none := by
  cases hm : afterCaseless? p t with
  | none => rfl
  | some r =>
      obtain ⟨u, rfl, hu⟩ := afterCaseless?_eq_some_iff.mp hm
      exact absurd (by rw [folds_append, hu]; exact List.prefix_append _ _) h

/-- What stands at the front is matched there. -/
theorem exists_afterCaseless? {p t : Text} (h : folds p <+: folds t) :
    ∃ r, afterCaseless? p t = some r := by
  have htake : folds (t.take p.length) = folds p := by
    have hp := List.prefix_iff_eq_take.mp h
    rw [folds, List.map_take]
    simpa [folds] using hp.symm
  refine ⟨t.drop p.length, ?_⟩
  have hafter := afterCaseless?_of_folds htake (t.drop p.length)
  rwa [List.take_append_drop] at hafter

theorem OccursIn.cons {p t : Text} (h : OccursIn p t) (c : Char) : OccursIn p (c :: t) :=
  List.infix_cons h

theorem occursIn_of_starts {p t : Text} (h : folds p <+: folds t) : OccursIn p t := h.isInfix

theorem occursIn_iff {p t : Text} :
    OccursIn p t ↔ ∃ x d y, t = x ++ (d ++ y) ∧ folds d = folds p := by
  constructor
  · rintro ⟨a, b, hab⟩
    obtain ⟨w, y, rfl, hw, -⟩ := List.map_eq_append_iff.mp hab.symm
    obtain ⟨x, d, rfl, -, hd⟩ := List.map_eq_append_iff.mp hw
    exact ⟨x, d, y, List.append_assoc .., hd⟩
  · rintro ⟨x, d, y, rfl, hd⟩
    refine ⟨folds x, folds y, ?_⟩
    rw [Text.folds_append, Text.folds_append, hd, List.append_assoc]

/-- What occurs in a text occurs in it a first time. -/
theorem OccursIn.exists_first {p t : Text} (h : OccursIn p t) (hp : p ≠ []) :
    ∃ x d y, t = x ++ (d ++ y) ∧ folds d = folds p ∧ ¬ OccursIn p x := by
  have hnil : ¬ OccursIn p [] := by
    intro hempty
    exact hp (List.map_eq_nil_iff.mp (List.infix_nil.mp hempty))
  induction t with
  | nil => exact absurd h hnil
  | cons c t ih =>
      by_cases hhere : folds p <+: folds (c :: t)
      · obtain ⟨y, hafter⟩ := exists_afterCaseless? hhere
        obtain ⟨d, hd, hfolds⟩ := afterCaseless?_eq_some_iff.mp hafter
        exact ⟨[], d, y, hd, hfolds, hnil⟩
      · have hlater : OccursIn p t := (List.infix_cons_iff.mp h).resolve_left hhere
        obtain ⟨x, d, y, rfl, hd, hx⟩ := ih hlater
        refine ⟨c :: x, d, y, rfl, hd, fun hcx => ?_⟩
        rcases List.infix_cons_iff.mp hcx with hstart | hx'
        · refine hhere (hstart.trans ?_)
          rw [folds_cons, folds_append]
          exact List.prefix_append (fold c :: folds x) (folds (d ++ y))
        · exact hx hx'

theorem occursIn_append_cons {p a b : Text} {c : Char} (hc : fold c ∉ folds p) :
    OccursIn p (a ++ c :: b) ↔ OccursIn p a ∨ OccursIn p b := by
  simp only [OccursIn, folds_append, folds_cons, infix_append_cons hc]

theorem occursIn_append_head {q a b : Text} {c d : Char} (hc : fold c ∉ folds q)
    (hd : fold d = fold c) :
    OccursIn (c :: q) (a ++ d :: b) ↔ OccursIn (c :: q) a ∨ OccursIn (c :: q) (d :: b) := by
  simp only [OccursIn, folds_append, folds_cons, hd, infix_append_head hc]

/-! ## Letters without case -/

theorem fold_toLower (c : Char) : fold c.toLower = fold c := by
  by_cases h : 0x41 ≤ c.toNat ∧ c.toNat ≤ 0x5A
  · have hcode : ∀ k ≤ 25, fold (Char.ofNat (0x41 + k)).toLower = fold (Char.ofNat (0x41 + k)) := by
      decide
    have hc := hcode (c.toNat - 0x41) (by omega)
    rwa [Nat.add_sub_cancel' h.1, Char.ofNat_toNat] at hc
  · have hlower : c.toLower = c := dif_neg h
    rw [hlower]

/-- Every mix of cases of the letters of ASCII is one spelling. -/
theorem folds_eq_of_map_toLower {s t : Text} (h : s.map Char.toLower = t.map Char.toLower) :
    folds s = folds t := by
  have hfolds : ∀ u : Text, folds (u.map Char.toLower) = folds u := fun u => by
    rw [folds, folds, List.map_map]
    exact List.map_congr_left fun c _ => fold_toLower c
  rw [← hfolds s, h, hfolds t]

/-- A blank character has no case. -/
theorem fold_of_isBlank {c : Char} (h : isBlank c = true) : fold c = c.toNat := by
  have hcode : ∀ r ∈ blankRanges, ∀ k ≤ r.2 - r.1, foldCode (r.1 + k) = r.1 + k := by
    decide +kernel
  obtain ⟨r, hr, hc⟩ := List.any_eq_true.mp h
  simp only [Bool.and_eq_true, decide_eq_true_eq] at hc
  have hfold := hcode r hr (c.toNat - r.1) (by omega)
  rwa [Nat.add_sub_cancel' hc.1] at hfold

end Emend.Text
