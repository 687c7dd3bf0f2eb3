import Emend.Diff.Align
import Mathlib.Data.List.Basic
import Mathlib.Order.Bounds.Defs

/-!
# The common lines are a longest common subsequence

`commonLength` is the length of a longest common subsequence by recursion on the two lists. The first
half of this file is about that number alone: no common subsequence is longer
(`length_le_commonLength`). The second half is about the table. `cells` says what the table holds,
`lengthRows_eq_cells` that `lengthRows` computes it, and the walk over it keeps a common subsequence
of exactly that length.

The walk runs on the reversed lists, so the statement about `common` is carried over a reversal.
-/

namespace Emend.Diff

variable {α : Type} [DecidableEq α]

/-! ## Lengths of common subsequences -/

/-- The lengths of the common subsequences of two lists. -/
def commonLengths {α : Type} (xs ys : List α) : Set Nat :=
  {n | ∃ c : List α, c.Sublist xs ∧ c.Sublist ys ∧ c.length = n}

/-- The length of a longest common subsequence. -/
def commonLength : (xs ys : List α) → Nat
  | [], _ => 0
  | _ :: _, [] => 0
  | x :: xs, y :: ys =>
    if x = y then commonLength xs ys + 1
    else max (commonLength xs (y :: ys)) (commonLength (x :: xs) ys)
termination_by xs ys => xs.length + ys.length

@[simp] theorem commonLength_nil_left (ys : List α) : commonLength [] ys = 0 := by
  simp [commonLength]

@[simp] theorem commonLength_nil_right (xs : List α) : commonLength xs [] = 0 := by
  cases xs <;> simp [commonLength]

theorem commonLength_cons_self (x : α) (xs ys : List α) :
    commonLength (x :: xs) (x :: ys) = commonLength xs ys + 1 := by
  rw [commonLength, if_pos rfl]

theorem commonLength_cons_ne {x y : α} (h : x ≠ y) (xs ys : List α) :
    commonLength (x :: xs) (y :: ys) =
      max (commonLength xs (y :: ys)) (commonLength (x :: xs) ys) := by
  rw [commonLength, if_neg h]

/-- **No common subsequence is longer than `commonLength`.** -/
theorem length_le_commonLength {c xs ys : List α} (hx : c.Sublist xs) (hy : c.Sublist ys) :
    c.length ≤ commonLength xs ys := by
  induction xs, ys using commonLength.induct generalizing c with
  | case1 ys =>
      rw [List.sublist_nil.mp hx]
      simp
  | case2 x xs =>
      rw [List.sublist_nil.mp hy]
      simp
  | case3 xs x ys ih =>
      rw [commonLength_cons_self]
      -- without its head, `c` is a common subsequence of the tails
      have htail : c.tail.length ≤ commonLength xs ys := ih hx.tail hy.tail
      rw [List.length_tail] at htail
      omega
  | case4 x xs y ys hne ihOld ihNew =>
      rw [commonLength_cons_ne hne]
      rcases List.sublist_cons_iff.mp hx with hx' | ⟨r, rfl, _⟩
      · exact Nat.le_trans (ihOld hx' hy) (Nat.le_max_left _ _)
      · exact Nat.le_trans (ihNew hx (hy.of_cons_of_ne hne)) (Nat.le_max_right _ _)

/-! ## The table -/

/-- The row of the table for `xs`: the lengths for `xs` and every tail of `ys`. -/
def cellRow (xs : List α) : (ys : List α) → List Nat
  | [] => [0]
  | y :: ys => commonLength xs (y :: ys) :: cellRow xs ys

/-- The table: a row for every tail of `xs`. -/
def cells : (xs ys : List α) → List (List Nat)
  | [], ys => [cellRow [] ys]
  | x :: xs, ys => cellRow (x :: xs) ys :: cells xs ys

theorem headD_cellRow (xs ys : List α) : (cellRow xs ys).headD 0 = commonLength xs ys := by
  cases ys <;> simp [cellRow]

theorem headD_cells (xs ys : List α) : (cells xs ys).headD [] = cellRow xs ys := by
  cases xs <;> rfl

theorem cellRow_nil (ys : List α) : cellRow [] ys = List.replicate (ys.length + 1) 0 := by
  induction ys with
  | nil => rfl
  | cons y ys ih => simp [cellRow, ih, List.replicate_succ]

theorem lengthRow_cellRow (x : α) (xs ys : List α) :
    lengthRow x ys (cellRow xs ys) = cellRow (x :: xs) ys := by
  induction ys with
  | nil => rfl
  | cons y ys ih =>
      simp only [lengthRow, cellRow, List.tail_cons, List.headD_cons, ih, headD_cellRow]
      by_cases h : x = y
      · subst h
        rw [if_pos rfl, commonLength_cons_self]
      · rw [if_neg h, commonLength_cons_ne h]

/-- `lengthRows` computes the table. -/
theorem lengthRows_eq_cells (xs ys : List α) : lengthRows xs ys = cells xs ys := by
  induction xs with
  | nil => simp only [lengthRows, cells, cellRow_nil]
  | cons x xs ih =>
      simp only [lengthRows, cells]
      rw [ih, headD_cells, lengthRow_cellRow]

theorem tail_cellRow_cons (xs : List α) (y : α) (ys : List α) :
    (cellRow xs (y :: ys)).tail = cellRow xs ys := rfl

/-- Dropping the first column is dropping the head of `ys`. -/
theorem map_tail_cells (xs : List α) (y : α) (ys : List α) :
    (cells xs (y :: ys)).map List.tail = cells xs ys := by
  induction xs with
  | nil => rfl
  | cons x xs ih => simp [cells, cellRow, ih]

theorem stepLengths_cells (x : α) (xs : List α) (y : α) (ys : List α) :
    stepLengths (cells (x :: xs) (y :: ys)) =
      (commonLength xs (y :: ys), commonLength (x :: xs) ys) := by
  simp only [stepLengths, cells, List.tail_cons, List.headD_cons, headD_cells, tail_cellRow_cons,
    headD_cellRow]

/-! ## The walk -/

theorem walk_cells_cons_self (x : α) (xs ys : List α) :
    walk (x :: xs) (x :: ys) (cells (x :: xs) (x :: ys)) = x :: walk xs ys (cells xs ys) := by
  rw [walk, if_pos rfl]
  simp [cells, map_tail_cells]

theorem walk_cells_cons_ne {x y : α} (h : x ≠ y) (xs ys : List α) :
    walk (x :: xs) (y :: ys) (cells (x :: xs) (y :: ys)) =
      if commonLength (x :: xs) ys ≤ commonLength xs (y :: ys)
      then walk xs (y :: ys) (cells xs (y :: ys))
      else walk (x :: xs) ys (cells (x :: xs) ys) := by
  rw [walk, if_neg h, stepLengths_cells, map_tail_cells]
  rfl

/-- The walk over the table keeps a common subsequence, and one of the greatest length. -/
theorem walk_cells (xs ys : List α) :
    (walk xs ys (cells xs ys)).Sublist xs ∧ (walk xs ys (cells xs ys)).Sublist ys ∧
      (walk xs ys (cells xs ys)).length = commonLength xs ys := by
  induction xs, ys using commonLength.induct with
  | case1 ys => simp [walk]
  | case2 x xs => simp [walk]
  | case3 xs x ys ih =>
      obtain ⟨hx, hy, hlen⟩ := ih
      rw [walk_cells_cons_self, commonLength_cons_self]
      exact ⟨hx.cons_cons x, hy.cons_cons x, by rw [List.length_cons, hlen]⟩
  | case4 x xs y ys hne ihOld ihNew =>
      rw [walk_cells_cons_ne hne, commonLength_cons_ne hne]
      -- the walk drops the head whose loss leaves more in common
      split
      · rename_i hle
        obtain ⟨hx, hy, hlen⟩ := ihOld
        exact ⟨hx.cons x, hy, by rw [hlen, Nat.max_eq_left hle]⟩
      · rename_i hle
        obtain ⟨hx, hy, hlen⟩ := ihNew
        exact ⟨hx, hy.cons y, by rw [hlen, Nat.max_eq_right (by omega)]⟩

/-! ## The common lines -/

theorem common_sublist_left (old new : List α) : (common old new).Sublist old := by
  have h := (walk_cells old.reverse new.reverse).1.reverse
  rwa [List.reverse_reverse, ← lengthRows_eq_cells] at h

theorem common_sublist_right (old new : List α) : (common old new).Sublist new := by
  have h := (walk_cells old.reverse new.reverse).2.1.reverse
  rwa [List.reverse_reverse, ← lengthRows_eq_cells] at h

theorem length_common (old new : List α) :
    (common old new).length = commonLength old.reverse new.reverse := by
  have h := (walk_cells old.reverse new.reverse).2.2
  rwa [← lengthRows_eq_cells, ← List.length_reverse] at h

/-- **The common lines are a longest common subsequence.** -/
theorem isGreatest_length_common (old new : List α) :
    IsGreatest (commonLengths old new) (common old new).length := by
  constructor
  · exact ⟨common old new, common_sublist_left old new, common_sublist_right old new, rfl⟩
  · rintro n ⟨c, hold, hnew, rfl⟩
    rw [length_common, ← List.length_reverse]
    exact length_le_commonLength hold.reverse hnew.reverse

end Emend.Diff
