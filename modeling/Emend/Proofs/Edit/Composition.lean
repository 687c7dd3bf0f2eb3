import Emend.Proofs.Edit.ApplyAll

/-!
# One list of instructions behind another

`Merger.applyFrom` carries three things from one instruction to the next: the text, the number of the
instruction and whether the file is deleted. The number only ever appears in a failure, shifted by where
the count began (`applyFrom_behind`); the mark of a deletion that a list starts with stays only where none
of its instructions is carried out (`applyFrom_deleted`). With both, applying two lists one behind the
other is applying their concatenation (`applyFrom_append`), also where the first list leaves no file.
-/

namespace Emend

/-- The failure as it is numbered behind `count` other instructions. -/
def FailedStep.behind (count : Nat) (f : FailedStep) : FailedStep := { f with index := f.index + count }

/-- The result as its failure is numbered behind `count` other instructions. -/
def MergeResult.behind (count : Nat) (r : MergeResult) : MergeResult :=
  { r with failure := r.failure.map (.behind count) }

/-- The very first instruction is the one that failed. -/
def MergeResult.failsAtFirst (r : MergeResult) : Bool := r.failure.any (·.index = 0)

namespace Merger

variable {m : Merger}

/-! ## What the number and the mark of a deletion do -/

/-- Counting from a later number shifts the number of the failure and nothing else. -/
theorem applyFrom_behind (index count : Nat) (deleted : Bool) (is : List Instruction)
    (current : Option Text) :
    m.applyFrom (index + count) deleted is current =
      (m.applyFrom index deleted is current).behind count := by
  induction is generalizing index deleted current with
  | nil => rfl
  | cons i is ih =>
      rw [applyFrom, applyFrom, Nat.add_right_comm]
      cases m.apply i current with
      | error e => rfl
      | ok edited =>
          cases edited with
          | written t => exact ih (index + 1) false (some t)
          | removed => exact ih (index + 1) true none

/-- Instructions that are counted from `count` are numbered behind `count` others. -/
theorem applyFrom_eq_behind (count : Nat) (deleted : Bool) (is : List Instruction)
    (current : Option Text) :
    m.applyFrom count deleted is current = (m.applyFrom 0 deleted is current).behind count := by
  rw [← applyFrom_behind, Nat.zero_add]

theorem failsAtFirst_applyFrom_succ (index : Nat) (deleted : Bool) (is : List Instruction)
    (current : Option Text) : (m.applyFrom (index + 1) deleted is current).failsAtFirst = false := by
  rw [applyFrom_behind, MergeResult.behind, MergeResult.failsAtFirst]
  cases (m.applyFrom index deleted is current).failure with
  | none => rfl
  | some f => rfl

/-- The mark of a deletion at the start is left where no instruction is carried out, and does not matter
otherwise. -/
theorem applyFrom_deleted (deleted : Bool) (is : List Instruction) (current : Option Text) :
    m.applyFrom 0 deleted is current =
      { m.applyAll is current with
        deleted := if is = [] ∨ (m.applyAll is current).failsAtFirst then deleted
          else (m.applyAll is current).deleted } := by
  cases is with
  | nil => rfl
  | cons i is =>
      rw [applyAll, applyFrom, applyFrom]
      cases m.apply i current with
      | error e => rfl
      | ok edited =>
          -- the mark is written anew, and a failure now has a number above 0
          cases edited with
          | written t => simp [failsAtFirst_applyFrom_succ]
          | removed => simp [failsAtFirst_applyFrom_succ]

/-! ## Two lists -/

/-- Where the first list fails nothing behind it counts; otherwise the second list goes on from the
text, the number and the mark that the first one leaves. -/
theorem applyFrom_append (index : Nat) (deleted : Bool) (xs ys : List Instruction)
    (current : Option Text) :
    m.applyFrom index deleted (xs ++ ys) current =
      if (m.applyFrom index deleted xs current).failure = none then
        m.applyFrom (index + xs.length) (m.applyFrom index deleted xs current).deleted ys
          (m.applyFrom index deleted xs current).content
      else m.applyFrom index deleted xs current := by
  induction xs generalizing index deleted current with
  | nil => rfl
  | cons x xs ih =>
      have hcount : index + (x :: xs).length = index + 1 + xs.length := by
        rw [List.length_cons, Nat.add_right_comm, Nat.add_assoc]
      rw [List.cons_append, applyFrom, applyFrom, hcount]
      cases m.apply x current with
      | error e => rfl
      | ok edited =>
          cases edited with
          | written t => exact ih (index + 1) false (some t)
          | removed => exact ih (index + 1) true none

theorem applyAll_append_of_failed {xs : List Instruction} {t : Option Text}
    (h : (m.applyAll xs t).failure ≠ none) (ys : List Instruction) :
    m.applyAll (xs ++ ys) t = m.applyAll xs t := by
  rw [applyAll, applyFrom_append]
  exact if_neg h

/-- A list behind one that went well: its result, numbered behind the first list, with the mark of a
deletion that the first list leaves if no instruction of the second is carried out. -/
theorem applyAll_append_of_succeeded {xs : List Instruction} {t : Option Text}
    (h : (m.applyAll xs t).failure = none) (ys : List Instruction) :
    m.applyAll (xs ++ ys) t =
      { (m.applyAll ys (m.applyAll xs t).content).behind xs.length with
        deleted := if ys = [] ∨ (m.applyAll ys (m.applyAll xs t).content).failsAtFirst
          then (m.applyAll xs t).deleted
          else (m.applyAll ys (m.applyAll xs t).content).deleted } := by
  have hgoesOn : m.applyAll (xs ++ ys) t =
      m.applyFrom (0 + xs.length) (m.applyAll xs t).deleted ys (m.applyAll xs t).content := by
    rw [applyAll, applyFrom_append]
    exact if_pos h
  rw [hgoesOn, Nat.zero_add, applyFrom_eq_behind, applyFrom_deleted]
  rfl

/-- A list that starts with an operation on the whole file fails later than at once, if at all. -/
theorem failsAtFirst_of_not_requiresAnchor {i : Instruction} (hop : i.operation.requiresAnchor = false)
    (hsupported : m.unsupported.contains i.operation = false) (is : List Instruction)
    (t : Option Text) : (m.applyAll (i :: is) t).failsAtFirst = false := by
  obtain ⟨edited, happly⟩ := exists_apply_of_not_requiresAnchor hop hsupported t
  rw [applyAll, applyFrom, happly]
  cases edited with
  | written u => exact failsAtFirst_applyFrom_succ 0 false is (some u)
  | removed => exact failsAtFirst_applyFrom_succ 0 true is none

/-- Behind any list that went well, a list that starts with an operation on the whole file leaves what it
would leave of any text. -/
theorem applyAll_append_of_whole {xs : List Instruction} {t : Option Text}
    (h : (m.applyAll xs t).failure = none) {i : Instruction}
    (hop : i.operation.requiresAnchor = false) (hsupported : m.unsupported.contains i.operation = false)
    (is : List Instruction) (u : Option Text) :
    m.applyAll (xs ++ i :: is) t = (m.applyAll (i :: is) u).behind xs.length := by
  rw [applyAll_append_of_succeeded h, failsAtFirst_of_not_requiresAnchor hop hsupported,
    applyAll_of_not_requiresAnchor hop hsupported (m.applyAll xs t).content u]
  rfl

/-- **Applying a concatenation is applying one list behind the other.** If the first list fails, the
second adds nothing. If it goes well, the content and the failure are those of the second list on the
content that the first one leaves, the failure numbered behind the first list, and so is the mark of a
deletion, but for a second list that is empty or fails at its first instruction: then the mark is the
first list's. If the second list starts with an operation on the whole file and no operation is refused,
the result is that of the second list on any text, whatever the first list and its text are. -/
theorem applyAll_append (m : Merger) (xs ys : List Instruction) (t : Option Text) :
    ((m.applyAll xs t).failure ≠ none → m.applyAll (xs ++ ys) t = m.applyAll xs t) ∧
    ((m.applyAll xs t).failure = none →
      (m.applyAll (xs ++ ys) t).content = (m.applyAll ys (m.applyAll xs t).content).content ∧
      (m.applyAll (xs ++ ys) t).failure =
        (m.applyAll ys (m.applyAll xs t).content).failure.map (.behind xs.length) ∧
      (m.applyAll (xs ++ ys) t).deleted =
        (if ys = [] ∨ (m.applyAll ys (m.applyAll xs t).content).failsAtFirst
          then (m.applyAll xs t).deleted
          else (m.applyAll ys (m.applyAll xs t).content).deleted) ∧
      ∀ i ∈ ys.head?, i.operation ∈ [.create, .replace, .deleteFile] → m.unsupported = [] →
        ∀ u, m.applyAll (xs ++ ys) t = (m.applyAll ys u).behind xs.length) := by
  refine ⟨fun hfailed => applyAll_append_of_failed hfailed ys, fun hok => ?_⟩
  refine ⟨?_, ?_, ?_, ?_⟩
  · rw [applyAll_append_of_succeeded hok]
    rfl
  · rw [applyAll_append_of_succeeded hok]
    rfl
  · rw [applyAll_append_of_succeeded hok]
  · intro i hi hop hnone u
    obtain ⟨is, rfl⟩ := List.head?_eq_some_iff.mp hi
    have hwhole : i.operation.requiresAnchor = false := by
      simp only [List.mem_cons, List.not_mem_nil, or_false] at hop
      rcases hop with h | h | h <;> (rw [h]; rfl)
    have hsupported : m.unsupported.contains i.operation = false := by
      rw [hnone]
      rfl
    exact applyAll_append_of_whole hok hwhole hsupported is u

/-- A new file with one line. -/
def sampleNewFile : Instruction where
  path := "a.txt".toList
  operation := .create
  content := some "one".toList

/-- A line put in behind one that is not there. -/
def sampleStray : Instruction where
  path := "a.txt".toList
  operation := .insertAfter
  content := some "two".toList
  anchor := some "three".toList

/-- The file deleted. -/
def sampleRemoval : Instruction where
  path := "a.txt".toList
  operation := .deleteFile

/-- An insertion that fails directly behind a deletion leaves the file deleted, which by itself it does
not. Behind a new file it fails one step later and as it would behind any other text, and what stands
behind it is not carried out. -/
theorem applyAll_append_deleted :
    (({} : Merger).applyAll ([sampleRemoval] ++ [sampleStray]) (some "old".toList)).deleted = true ∧
    (({} : Merger).applyAll [sampleStray] none).deleted = false ∧
    ({} : Merger).applyAll ([sampleRemoval] ++ [sampleNewFile, sampleStray]) (some "old".toList) =
      ⟨some "one".toList, false, some ⟨2, sampleStray, .anchorNotFound .only⟩⟩ ∧
    ({} : Merger).applyAll ([sampleNewFile, sampleStray] ++ [sampleRemoval]) none =
      ⟨some "one".toList, false, some ⟨1, sampleStray, .anchorNotFound .only⟩⟩ := by
  have hone : ({} : Merger).applyAll [sampleNewFile, sampleStray] none =
      ⟨some "one".toList, false, some ⟨1, sampleStray, .anchorNotFound .only⟩⟩ := by decide
  obtain ⟨-, -, hdeleted, -⟩ :=
    (applyAll_append {} [sampleRemoval] [sampleStray] (some "old".toList)).2 (by decide)
  obtain ⟨-, -, -, hanew⟩ :=
    (applyAll_append {} [sampleRemoval] [sampleNewFile, sampleStray] (some "old".toList)).2 (by decide)
  have hstopped := (applyAll_append {} [sampleNewFile, sampleStray] [sampleRemoval] none).1
    (by rw [hone]; exact Option.some_ne_none _)
  refine ⟨hdeleted, by decide, ?_, hstopped.trans hone⟩
  rw [hanew sampleNewFile rfl (by decide) rfl none, hone]
  rfl

end Merger

end Emend
