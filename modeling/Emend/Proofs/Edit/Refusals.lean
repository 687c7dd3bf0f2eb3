import Emend.Proofs.Edit.Ambiguity

/-!
# Why an instruction is refused

`apply_error` says all that an instruction can be refused for: its operation is not supported, it edits at
an anchor where there is nothing to edit, or the search of one of its anchors fails (`SearchFailed`). An
anchor is reported as empty only if the instruction has none or an empty one for that place, and the words
of a refusal tell whether it was for that (`empty_suffix_detail_iff`).
-/

namespace Emend

/-- The anchors that the operation searches. -/
def Operation.anchorRoles : Operation → List AnchorRole
  | create | replace | deleteFile => []
  | findReplace | deleteContent => [.start, .stop]
  | insertBefore | insertAfter => [.only]

/-- The text of the instruction's anchor in that role. -/
def Instruction.anchorFor (i : Instruction) : AnchorRole → Option Text
  | .only | .start => i.anchor
  | .stop => i.anchorEnd

/-- What the search of an anchor fails with. -/
inductive SearchFailed (anchor : Option Text) (role : AnchorRole) : MergeError → Prop
  | empty : anchor.getD [] = [] → SearchFailed anchor role (.anchorEmpty role)
  | notFound : anchor.getD [] ≠ [] → SearchFailed anchor role (.anchorNotFound role)
  | ambiguous {n : Nat} : anchor.getD [] ≠ [] → n ≠ 1 →
      SearchFailed anchor role (.anchorAmbiguous role n)

/-- What an instruction is refused with for a file of that text. -/
inductive Refused (m : Merger) (i : Instruction) (base : Option Text) : MergeError → Prop
  | unsupported : i.operation ∈ m.unsupported → Refused m i base (.unsupported i.operation)
  | emptyBase : i.operation.requiresAnchor = true → base.getD [] = [] →
      Refused m i base (.emptyBase i.path)
  | search {role : AnchorRole} {e : MergeError} : role ∈ i.operation.anchorRoles →
      SearchFailed (i.anchorFor role) role e → Refused m i base e

namespace MergeError

theorem not_suffix_append {p q : Text} (hpq : ¬ p <:+ q) (hqp : ¬ q <:+ p) (x : Text) :
    ¬ p <:+ x ++ q := by
  intro h
  rcases List.suffix_or_suffix_of_suffix h (List.suffix_append x q) with hp | hq
  · exact hpq hp
  · exact hqp hq

/-- The details that end so are those of empty anchors. -/
theorem empty_suffix_detail_iff {e : MergeError} :
    "is empty".toList <:+ e.detail ↔ ∃ role, e = .anchorEmpty role := by
  constructor
  · intro h
    cases e with
    | anchorEmpty role => exact ⟨role, rfl⟩
    | anchorNotFound role => exact absurd h (not_suffix_append (by decide) (by decide) _)
    | anchorAmbiguous role n => exact absurd h (not_suffix_append (by decide) (by decide) _)
    | emptyBase path => exact absurd h (not_suffix_append (by decide) (by decide) _)
    | unsupported op => exact absurd h (not_suffix_append (by decide) (by decide) _)
  · rintro ⟨role, rfl⟩
    exact ⟨role.label.toList ++ [' '], List.append_assoc ..⟩

theorem kind_eq_unsupportedOperation_iff {e : MergeError} :
    e.kind = .unsupportedOperation ↔ ∃ op, e = .unsupported op := by
  cases e <;> simp [kind]

end MergeError

namespace Merger

variable {m : Merger} {i : Instruction} {role : AnchorRole} {text : Text} {e : MergeError}

theorem locateUnique_error {anchor : Option Text} (h : m.locateUnique i role text anchor = .error e) :
    SearchFailed anchor role e := by
  unfold locateUnique at h
  split at h
  · rename_i hempty
    cases h
    exact .empty hempty
  · rename_i hne
    split at h
    · cases h
      exact .notFound hne
    · split at h
      · cases h
      · rename_i hmore
        cases h
        exact .ambiguous hne hmore

theorem region_error (h : m.region i text = .error e) :
    SearchFailed i.anchor .start e ∨ SearchFailed i.anchorEnd .stop e := by
  unfold region at h
  cases hfirst : m.locateUnique i .start text i.anchor with
  | error e' =>
      rw [hfirst] at h
      cases h
      exact .inl (locateUnique_error hfirst)
  | ok first =>
      rw [hfirst] at h
      dsimp only [bind, Except.bind] at h
      cases hlast : m.locateUnique i .stop (text.drop first.start) i.anchorEnd with
      | error e' =>
          rw [hlast] at h
          cases h
          exact .inr (locateUnique_error hlast)
      | ok last =>
          rw [hlast] at h
          cases h

theorem error_of_map {α : Type} {a? : Except MergeError α} {write : α → Edited}
    (h : a?.map write = .error e) : a? = .error e := by
  cases a? with
  | error e' => exact congrArg _ (Except.error.inj h)
  | ok a => cases h

/-- An operation that is carried out fails on the search of one of its anchors. -/
theorem perform_error (h : m.perform i text = .error e) :
    ∃ role ∈ i.operation.anchorRoles, SearchFailed (i.anchorFor role) role e := by
  cases hop : i.operation with
  | create | replace | deleteFile =>
      unfold perform at h
      rw [hop] at h
      cases h
  | findReplace | deleteContent =>
      rw [perform_of_two_anchors (by simp [hop])] at h
      rcases region_error (error_of_map h) with hstart | hstop
      · exact ⟨.start, by decide, hstart⟩
      · exact ⟨.stop, by decide, hstop⟩
  | insertBefore | insertAfter =>
      rw [perform_insertion (by simp [hop])] at h
      exact ⟨.only, by decide, locateUnique_error (error_of_map h)⟩

/-- **Why an instruction is refused.** -/
theorem apply_error {base : Option Text} (h : m.apply i base = .error e) : Refused m i base e := by
  unfold apply at h
  dsimp only at h
  split at h
  · rename_i hunsupported
    cases h
    exact .unsupported (by simpa using hunsupported)
  · split at h
    · rename_i hempty
      cases h
      rw [Bool.and_eq_true, List.isEmpty_iff] at hempty
      exact .emptyBase hempty.1 hempty.2
    · obtain ⟨role, hrole, hsearch⟩ := perform_error h
      exact .search hrole hsearch

end Merger

end Emend
