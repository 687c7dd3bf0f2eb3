import Emend.Edit.Merge

/-!
# Applying several instructions

What a list of instructions leaves of a file: after at least one of them the file is deleted exactly if
it has no text, and a list that starts with an operation on the whole file does not look at the text it
is given.
-/

namespace Emend.Merger

variable {m : Merger}

/-! ## Deleted or written -/

theorem deleted_applyFrom {index : Nat} {deleted : Bool} {is : List Instruction} {current : Option Text}
    (h : deleted = current.isNone) :
    (m.applyFrom index deleted is current).deleted =
      (m.applyFrom index deleted is current).content.isNone := by
  induction is generalizing index deleted current with
  | nil => exact h
  | cons i is ih =>
      rw [applyFrom]
      cases m.apply i current with
      | error e => exact h
      | ok edited =>
          cases edited with
          | written t => exact ih rfl
          | removed => exact ih rfl

/-- After instructions that all went well the file is deleted exactly if it has no text. -/
theorem deleted_applyAll {is : List Instruction} {current : Option Text} (hne : is ≠ [])
    (hok : (m.applyAll is current).failure = none) :
    (m.applyAll is current).deleted = (m.applyAll is current).content.isNone := by
  cases is with
  | nil => exact absurd rfl hne
  | cons i is =>
      rw [applyAll, applyFrom] at hok ⊢
      cases happly : m.apply i current with
      | error e =>
          rw [happly] at hok
          cases hok
      | ok edited =>
          cases edited with
          | written t => exact deleted_applyFrom rfl
          | removed => exact deleted_applyFrom rfl

/-- So the text they leave is the text of the file, whether or not it is deleted. -/
theorem content_applyAll {is : List Instruction} {current : Option Text} (hne : is ≠ [])
    (hok : (m.applyAll is current).failure = none) :
    (if (m.applyAll is current).deleted then none else (m.applyAll is current).content) =
      (m.applyAll is current).content := by
  rw [deleted_applyAll hne hok]
  cases (m.applyAll is current).content <;> rfl

/-- Only the operation that deletes the file removes it. -/
theorem operation_of_apply_removed {i : Instruction} {t : Option Text}
    (h : m.apply i t = .ok .removed) : i.operation = .deleteFile := by
  rw [apply] at h
  split at h
  · cases h
  · split at h
    · cases h
    · rw [perform] at h
      cases hcase : i.operation with
      | deleteFile => rfl
      | create | replace =>
          rw [hcase] at h
          cases h
      | findReplace | deleteContent =>
          rw [hcase] at h
          cases hregion : m.region i (t.getD []) <;> rw [hregion] at h <;> cases h
      | insertBefore | insertAfter =>
          rw [hcase] at h
          cases hhit : m.locateUnique i .only (t.getD []) i.anchor <;> rw [hhit] at h <;> cases h

theorem deleted_applyFrom_of_creates {is : List Instruction} (his : ∀ i ∈ is, i.operation = .create)
    (index : Nat) (current : Option Text) : (m.applyFrom index false is current).deleted = false := by
  induction is generalizing index current with
  | nil => rfl
  | cons i is ih =>
      have htail := ih fun j hj => his j (List.mem_cons_of_mem _ hj)
      rw [applyFrom]
      cases happly : m.apply i current with
      | error e => rfl
      | ok edited =>
          cases edited with
          | written t => exact htail _ _
          | removed =>
              have hdelete := operation_of_apply_removed happly
              rw [his i List.mem_cons_self] at hdelete
              cases hdelete

/-- Instructions that only create the file do not delete it. -/
theorem deleted_applyAll_of_creates {is : List Instruction} (his : ∀ i ∈ is, i.operation = .create)
    (current : Option Text) : (m.applyAll is current).deleted = false :=
  deleted_applyFrom_of_creates his 0 current

/-! ## Operations on the whole file -/

/-- Such an operation does not look at the text. -/
theorem apply_of_not_requiresAnchor {i : Instruction} (hop : i.operation.requiresAnchor = false)
    (t t' : Option Text) : m.apply i t = m.apply i t' := by
  have hperform : m.perform i (t.getD []) = m.perform i (t'.getD []) := by
    rw [perform, perform]
    cases hcase : i.operation with
    | create | replace | deleteFile => rfl
    | findReplace | deleteContent | insertBefore | insertAfter =>
        rw [hcase] at hop
        cases hop
  rw [apply, apply, hop, hperform]
  rfl

/-- Unless it is refused, it goes well. -/
theorem exists_apply_of_not_requiresAnchor {i : Instruction} (hop : i.operation.requiresAnchor = false)
    (hsupported : m.unsupported.contains i.operation = false) (t : Option Text) :
    ∃ edited, m.apply i t = .ok edited := by
  rw [apply, hsupported, hop, perform]
  cases hcase : i.operation with
  | create | replace | deleteFile => exact ⟨_, rfl⟩
  | findReplace | deleteContent | insertBefore | insertAfter =>
      rw [hcase] at hop
      cases hop

/-- If an operation on the whole file comes first and is not refused, the text at the start does not
matter. -/
theorem applyAll_of_not_requiresAnchor {i : Instruction} {is : List Instruction}
    (hop : i.operation.requiresAnchor = false) (hsupported : m.unsupported.contains i.operation = false)
    (t t' : Option Text) : m.applyAll (i :: is) t = m.applyAll (i :: is) t' := by
  obtain ⟨edited, happly⟩ := exists_apply_of_not_requiresAnchor hop hsupported t
  rw [applyAll, applyAll, applyFrom, applyFrom, apply_of_not_requiresAnchor hop t' t, happly]
  cases edited <;> rfl

section

variable {is : List Instruction} (hwhole : ∀ i ∈ is, i.operation.requiresAnchor = false)
  (hsupported : ∀ i ∈ is, m.unsupported.contains i.operation = false)
include hwhole hsupported

theorem failure_applyFrom_of_whole (index : Nat) (deleted : Bool) (current : Option Text) :
    (m.applyFrom index deleted is current).failure = none := by
  induction is generalizing index deleted current with
  | nil => rfl
  | cons i is ih =>
      have htail := ih (fun j hj => hwhole j (List.mem_cons_of_mem _ hj))
        fun j hj => hsupported j (List.mem_cons_of_mem _ hj)
      obtain ⟨edited, happly⟩ := exists_apply_of_not_requiresAnchor (hwhole i List.mem_cons_self)
        (hsupported i List.mem_cons_self) current
      rw [applyFrom, happly]
      cases edited with
      | written t => exact htail _ _ _
      | removed => exact htail _ _ _

/-- Operations on the whole file all go well, if none is refused. -/
theorem failure_applyAll_of_whole (t : Option Text) : (m.applyAll is t).failure = none :=
  failure_applyFrom_of_whole hwhole hsupported 0 false t

/-- What they leave does not change when they are applied once more. -/
theorem content_applyAll_applyAll (t : Option Text) :
    (m.applyAll is (m.applyAll is t).content).content = (m.applyAll is t).content := by
  cases is with
  | nil => rfl
  | cons i is =>
      rw [applyAll_of_not_requiresAnchor (hwhole i List.mem_cons_self)
        (hsupported i List.mem_cons_self) _ t]

end

end Emend.Merger
