import Emend.Edit.Operation
import Mathlib.Data.List.Nodup

/-!
# Instructions by file

The groups of a list of instructions: one for each path that occurs, with the instructions of that path.
-/

namespace Emend.Instruction

theorem mem_foldl_paths (is : List Instruction) (seen : List Text) (p : Text) :
    p ∈ is.foldl (fun seen i => if seen.contains i.path then seen else seen ++ [i.path]) seen ↔
      p ∈ seen ∨ p ∈ is.map (·.path) := by
  induction is generalizing seen with
  | nil => simp
  | cons i is ih =>
      rw [List.foldl_cons, ih, List.map_cons, List.mem_cons]
      split
      · rename_i hseen
        have hseen : i.path ∈ seen := List.contains_iff_mem.mp hseen
        constructor
        · rintro (h | h)
          · exact .inl h
          · exact .inr (.inr h)
        · rintro (h | rfl | h)
          · exact .inl h
          · exact .inl hseen
          · exact .inr h
      · rw [List.mem_append, List.mem_singleton, or_assoc]

/-- The paths are those of the instructions. -/
theorem mem_paths {is : List Instruction} {p : Text} : p ∈ paths is ↔ p ∈ is.map (·.path) := by
  rw [paths, mem_foldl_paths]
  exact or_iff_right List.not_mem_nil

theorem nodup_foldl_paths (is : List Instruction) {seen : List Text} (h : seen.Nodup) :
    (is.foldl (fun seen i => if seen.contains i.path then seen else seen ++ [i.path]) seen).Nodup := by
  induction is generalizing seen with
  | nil => exact h
  | cons i is ih =>
      rw [List.foldl_cons]
      split
      · exact ih h
      · rename_i hseen
        rw [List.contains_iff_mem] at hseen
        exact ih (List.concat_eq_append ▸ h.concat hseen)

/-- Each path is listed once. -/
theorem nodup_paths (is : List Instruction) : (paths is).Nodup := nodup_foldl_paths is List.nodup_nil

/-- Where a path first appears among the instructions. -/
def firstAt (is : List Instruction) (p : Text) : Nat := (is.map (·.path)).idxOf p

theorem pairwise_foldl_paths {whole : List Text} (before : List Text) {is : List Instruction}
    {seen : List Text}
    (hwhole : whole = before ++ is.map (·.path)) (hseen : ∀ p, p ∈ seen ↔ p ∈ before)
    (h : seen.Pairwise fun p q => whole.idxOf p < whole.idxOf q) :
    (is.foldl (fun seen i => if seen.contains i.path then seen else seen ++ [i.path]) seen).Pairwise
      fun p q => whole.idxOf p < whole.idxOf q := by
  induction is generalizing before seen with
  | nil => exact h
  | cons i is ih =>
      have hnext : whole = (before ++ [i.path]) ++ is.map (·.path) := by
        rw [hwhole, List.map_cons, List.append_assoc, List.singleton_append]
      rw [List.foldl_cons]
      split
      · rename_i hcontains
        have hmem : i.path ∈ before := (hseen _).mp (List.contains_iff_mem.mp hcontains)
        refine ih _ hnext (fun p => ?_) h
        rw [hseen, List.mem_append, List.mem_singleton]
        exact ⟨.inl, fun hp => hp.elim id fun hp => hp ▸ hmem⟩
      · rename_i hcontains
        have hnot : i.path ∉ before := fun hmem =>
          hcontains (List.contains_iff_mem.mpr ((hseen _).mpr hmem))
        refine ih _ hnext (fun p => by rw [List.mem_append, List.mem_append, hseen]) ?_
        refine List.pairwise_append.mpr ⟨h, List.pairwise_singleton _ _, fun p hp q hq => ?_⟩
        -- the paths seen before stand in front of the new one
        rw [List.mem_singleton.mp hq, hwhole, List.map_cons,
          List.idxOf_append_of_mem ((hseen p).mp hp), List.idxOf_append_of_notMem hnot]
        have hlt := List.idxOf_lt_length_of_mem ((hseen p).mp hp)
        omega

/-- The paths stand in the order in which they first appear. -/
theorem pairwise_paths (is : List Instruction) :
    (paths is).Pairwise fun p q => firstAt is p < firstAt is q :=
  pairwise_foldl_paths [] (List.nil_append _).symm (fun _ => Iff.rfl) .nil

theorem map_fst_groupByPath (is : List Instruction) : (groupByPath is).map (·.1) = paths is := by
  rw [groupByPath, List.map_map]
  exact List.map_id _

/-- A group holds the instructions of its path in their order. -/
theorem snd_of_mem_groupByPath {is : List Instruction} {g : Text × List Instruction}
    (hg : g ∈ groupByPath is) : g.2 = is.filter (·.path = g.1) := by
  obtain ⟨p, -, rfl⟩ := List.mem_map.mp hg
  rfl

/-- No group is empty. -/
theorem ne_nil_of_mem_groupByPath {is : List Instruction} {g : Text × List Instruction}
    (hg : g ∈ groupByPath is) : g.2 ≠ [] := by
  obtain ⟨p, hp, rfl⟩ := List.mem_map.mp hg
  obtain ⟨i, hi, rfl⟩ := List.mem_map.mp (mem_paths.mp hp)
  exact List.ne_nil_of_mem (List.mem_filter.mpr ⟨hi, decide_eq_true rfl⟩)

/-- A path that no group has is not the path of one of them. -/
theorem fst_not_mem_singleton {gs : List (Text × List Instruction)} {p : Text}
    (hp : p ∉ gs.map (·.1)) {g : Text × List Instruction} (hg : g ∈ gs) : g.1 ∉ [p] := by
  intro hmem
  rw [← List.mem_singleton.mp hmem] at hp
  exact hp (List.mem_map_of_mem hg)

/-! ## Without one path -/

end Emend.Instruction
