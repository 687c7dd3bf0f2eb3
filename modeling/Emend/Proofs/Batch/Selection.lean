import Emend.Batch.Session
import Mathlib.Data.List.Sort

/-!
# Selections

A selection asks for instructions of a message by their numbers. It is a set: neither the order nor the
repetition of its numbers is of account. What it selects are the instructions with the numbers that it
has, in the order of the message, and it ignores the numbers that no instruction has.
-/

namespace Emend.Session

/-- The instructions that a selection selects: all, or those with the numbers asked for. -/
def selected (is : List Instruction) : Option (List Int) → List Instruction
  | none => is
  | some asked =>
    ((List.range is.length).filter fun n : Nat => decide ((n : Int) ∈ asked)).filterMap (is[·]?)

theorem nodup_eraseDups (ns : List Int) : ns.eraseDups.Nodup := by
  induction hlength : ns.length using Nat.strong_induction_on generalizing ns with
  | _ length ih =>
      cases ns with
      | nil => exact List.nodup_nil
      | cons n ns =>
          rw [List.eraseDups_cons, List.nodup_cons]
          refine ⟨fun hmem => ?_, ih _ ?_ _ rfl⟩
          · have hne := (List.mem_filter.mp (List.mem_eraseDups.mp hmem)).2
            simp at hne
          · have hle := List.length_filter_le (fun b => !b == n) ns
            rw [List.length_cons] at hlength
            omega

theorem mem_ascending {ns : List Int} {n : Int} : n ∈ ascending ns ↔ n ∈ ns := by
  rw [ascending, List.mem_mergeSort, List.mem_eraseDups]

/-- Each number stands once, behind all that are smaller. -/
theorem pairwise_ascending (ns : List Int) : (ascending ns).Pairwise (· < ·) := by
  have hnodup : (ascending ns).Nodup :=
    (List.mergeSort_perm _ _).nodup_iff.mpr (nodup_eraseDups ns)
  exact (List.sortedLE_mergeSort.sortedLT_of_nodup hnodup).pairwise

theorem ascending_congr {ns ns' : List Int} (h : ∀ n, n ∈ ns' ↔ n ∈ ns) : ascending ns' = ascending ns := by
  refine (pairwise_ascending ns').sortedLT.eq_of_mem_iff (pairwise_ascending ns).sortedLT fun n => ?_
  rw [mem_ascending, mem_ascending]
  exact h n

/-- The order and the repetition of the numbers are of no account. -/
theorem select_congr {asked asked' : List Int} (h : ∀ n, n ∈ asked' ↔ n ∈ asked)
    (is : List Instruction) : select is (some asked') = select is (some asked) := by
  rw [select, select, ascending_congr h]

/-- The numbers asked for that instructions have. -/
theorem filter_ascending (asked : List Int) (count : Nat) :
    (ascending asked).filter (fun i : Int => decide (0 ≤ i ∧ i < count)) =
      ((List.range count).filter fun n : Nat => decide ((n : Int) ∈ asked)).map Int.ofNat := by
  have hleft : ((ascending asked).filter fun i : Int => decide (0 ≤ i ∧ i < count)).SortedLT :=
    ((pairwise_ascending asked).filter _).sortedLT
  have hright : (((List.range count).filter fun n : Nat => decide ((n : Int) ∈ asked)).map
      Int.ofNat).SortedLT := by
    refine List.Pairwise.sortedLT (List.pairwise_map.mpr ?_)
    exact (List.pairwise_lt_range.filter _).imp fun h => Int.ofNat_lt.mpr h
  refine hleft.eq_of_mem_iff hright fun i => ?_
  rw [List.mem_filter, mem_ascending, decide_eq_true_iff, List.mem_map]
  constructor
  · rintro ⟨hasked, hpos, hlt⟩
    refine ⟨i.toNat, List.mem_filter.mpr ⟨List.mem_range.mpr ?_, decide_eq_true ?_⟩, ?_⟩
    · omega
    · rwa [Int.toNat_of_nonneg hpos]
    · exact Int.toNat_of_nonneg hpos
  · rintro ⟨n, hn, rfl⟩
    obtain ⟨hrange, hasked⟩ := List.mem_filter.mp hn
    have hlt := List.mem_range.mp hrange
    refine ⟨of_decide_eq_true hasked, Int.natCast_nonneg n, Int.ofNat_lt.mpr hlt⟩

theorem fst_select (is : List Instruction) (selection : Option (List Int)) :
    (select is selection).1 = selected is selection := by
  cases selection with
  | none => rfl
  | some asked =>
      show ((ascending asked).filter fun i : Int => decide (0 ≤ i ∧ i < is.length)).filterMap
        (fun i => is[i.toNat]?) = _
      rw [filter_ascending, List.filterMap_map]
      rfl

/-- The numbers that are ignored are those that no instruction has. -/
theorem mem_snd_select {is : List Instruction} {selection : Option (List Int)} {n : Int} :
    n ∈ (select is selection).2 ↔ n ∈ selection.getD [] ∧ ¬ (0 ≤ n ∧ n < is.length) := by
  cases selection with
  | none => exact ⟨fun h => absurd h List.not_mem_nil, fun h => absurd h.1 List.not_mem_nil⟩
  | some asked =>
      show n ∈ (ascending asked).filter (fun i : Int => !decide (0 ≤ i ∧ i < is.length)) ↔ _
      rw [List.mem_filter, mem_ascending, Bool.not_eq_true', decide_eq_false_iff_not]
      rfl

theorem pairwise_snd_select (is : List Instruction) (selection : Option (List Int)) :
    (select is selection).2.Pairwise (· < ·) := by
  cases selection with
  | none => exact List.Pairwise.nil
  | some asked => exact (pairwise_ascending asked).filter _

end Emend.Session
