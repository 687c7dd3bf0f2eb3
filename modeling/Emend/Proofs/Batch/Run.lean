import Emend.Proofs.Batch.Commit
import Emend.Proofs.Config.Message

/-!
# What a run comes to

A run over a store that is like a map is, file by file, the application of the file's instructions to
the text that the file had. Only a failed call for the file itself can keep it from that.
-/

namespace Emend.Session

open Act

variable {σ : Type} {inv : σ → Prop} {files : σ → Text → Option Text}
  {out : StoreMethod → Text → Prop}

/-- **What a run comes to.** Over a store that is like a map, a run answers a batch; a call fails only
if it can; files that the message does not name keep their texts; and a file that it names keeps its
text too if a call for it failed or its instructions cannot be applied, and else has the text that its
instructions, in their order, make of the text it had. The calls are those recorded by the session's
watched run, which ends in the state of the run itself. -/
theorem run_meaning (s : Session σ) (hstore : s.store.MapLike inv files out)
    (hquiet : s.IsQuiet inv files) (message : Text) (ref : Option Text) (st : σ) (hst : inv st)
    (hformat : ∀ i ∈ (Message.parse s.config.fileTag message).instructions,
      ∃ m, s.config.messageFor i.path i.operation = .ok m) :
    let is := (Message.parse s.config.fileTag message).instructions
    let st' := (s.run message ref false st).state
    ∃ b calls, (s.run message ref false st).result = .ok b ∧
      (s.watched.run message ref false (st, [])).state = (st', calls) ∧
      (∀ c ∈ calls, c.isAnswered = false → out c.method c.path) ∧
      (∀ p, p ∉ is.map (·.path) → files st' p = files st p) ∧
      ∀ p ∈ is.map (·.path), ∃ c, b.get? p = some c ∧
        let r := s.merger.applyAll (is.filter (·.path = p)) (files st p)
        if FailedAt calls p ∨ r.failure.isSome then
          files st' p = files st p ∧ (c.status = .failed ∨ c.status = .anchorNotFound)
        else
          files st' p = (if r.deleted then none else r.content) ∧
            (c.status = .success ∨ c.status = .skipped) := by
  intro is st'
  have hrun : (s.watched.run message ref false).Gives (st, []) fun b st' =>
      Sound inv out st' ∧ Frame files (Instruction.paths is) (st, []) st' ∧
        List.Forall₂ (Committed s.merger (files st) (files st'.1) st'.2) (Instruction.groupByPath is)
          b.changes := by
    refine (gives_prepare hstore hquiet message ref hst).bind ?_
    rintro b st₁ ⟨hsound, hfiles, hframe, hprepared⟩
    refine (gives_commit hstore hquiet ref hsound hformat hfiles hprepared).bind ?_
    rintro ⟨b', e⟩ st₂ ⟨rfl, hsound', hframe', hall⟩
    exact gives_pure ⟨hsound', hframe.trans hframe', hall⟩
  obtain ⟨b, hresult, hsound, hframe, hall⟩ := hrun
  obtain ⟨hunder, hstate, -⟩ := s.under_run message ref false st []
  refine ⟨b, (s.watched.run message ref false (st, [])).state.2, hunder ▸ hresult, ?_,
    hsound.calls, fun p hp => ?_, fun p hp => ?_⟩
  · exact Prod.ext hstate rfl
  · rw [← congrFun (congrArg files hstate) p]
    exact hframe.files p fun hmem => hp (Instruction.mem_paths.mp hmem)
  · have hg : (p, is.filter (·.path = p)) ∈ Instruction.groupByPath is :=
      List.mem_map.mpr ⟨p, Instruction.mem_paths.mpr hp, rfl⟩
    obtain ⟨c, hfind, -, hfate⟩ := find?_of_committed hall
      (Instruction.map_fst_groupByPath is ▸ Instruction.nodup_paths is) hg
    have hfate := hstate ▸ hfate
    refine ⟨c, hfind, ?_⟩
    dsimp only
    split
    · rename_i hfailed
      obtain ⟨hkept, hstatus⟩ := hfate.kept hfailed
      exact ⟨hkept, ChangeStatus.isFailure_iff.mp hstatus⟩
    · rename_i hmade
      obtain ⟨hcontent, hstatus⟩ := hfate.made hmade
      have hok := Option.not_isSome_iff_eq_none.mp fun hfailure => hmade (.inr hfailure)
      rw [Merger.content_applyAll (Instruction.ne_nil_of_mem_groupByPath hg) hok]
      exact ⟨hcontent, hstatus⟩

/-! ## A run in memory -/

/-- A memory with two files, in which one that is not there yet cannot be written. -/
def sampleMemory : Memory where
  files := [("a.txt".toList, "one\n".toList), ("c.txt".toList, "three\n".toList)]
  outages := [(.write, "b.txt".toList)]

/-- Asks for the deletion of one file and the writing of another. -/
def sampleRequest : Text :=
  "[FILE] a.txt\n[DELETE_FILE]\n[FILE] b.txt\n[REPLACE]two\n[/REPLACE]".toList

theorem parse_sampleRequest : (Message.parse .standard sampleRequest).instructions =
    [{ path := "a.txt".toList, operation := .deleteFile },
     { path := "b.txt".toList, operation := .replace, content := some "two".toList }] := by
  decide +kernel

/-- The run ends, the deletion is made whatever becomes of the other file, and the file that is not
named is still there. -/
theorem run_sampleRequest :
    let s : Session Memory := { store := Memory.store }
    let st' := (s.run sampleRequest none false sampleMemory).state
    (∀ i ∈ (Message.parse s.config.fileTag sampleRequest).instructions,
      ∃ m, s.config.messageFor i.path i.operation = .ok m) ∧
    (s.run sampleRequest none false sampleMemory).result.isOk ∧
    st'.get? "a.txt".toList = none ∧ st'.get? "c.txt".toList = some "three\n".toList := by
  intro s st'
  have hformat : ∀ i ∈ (Message.parse s.config.fileTag sampleRequest).instructions,
      ∃ m, s.config.messageFor i.path i.operation = .ok m := fun i _ =>
    ⟨_, Config.messageFor_default rfl i.path i.operation⟩
  obtain ⟨b, calls, hresult, -, hout, hother, hnamed⟩ :=
    run_meaning s (Memory.mapLike_store sampleMemory.outages) (fun _ h => nomatch h) sampleRequest none
      sampleMemory rfl hformat
  have hparse : (Message.parse s.config.fileTag sampleRequest).instructions = _ := parse_sampleRequest
  rw [hparse] at hother hnamed
  refine ⟨hformat, by rw [hresult]; rfl, ?_, hother _ (by decide)⟩
  obtain ⟨c, -, hc⟩ := hnamed "a.txt".toList (by decide)
  -- only a write of the other file can fail
  have hanswered : ¬ FailedAt calls "a.txt".toList := by
    rintro ⟨call, hcall, hpath, hfailed⟩
    have hlisted := hout call hcall hfailed
    rw [hpath] at hlisted
    revert hlisted
    cases call.method <;> decide
  dsimp only at hc
  rw [if_neg (not_or.mpr ⟨hanswered, by decide⟩)] at hc
  exact hc.1

end Emend.Session
