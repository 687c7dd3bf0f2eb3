import Emend.Batch.Session
import Emend.Proofs.Store.Watched

/-!
# Watched sessions

A session over a watched store does and answers what it does over the store itself, so the record of
calls that it leaves is that of the session's own run.
-/

namespace Emend.Session

open Act

variable {σ : Type}

/-- The session over its store watched. -/
def watched (s : Session σ) : Session (σ × List Call) where
  store := s.store.watched
  config := s.config
  journal := s.journal.map fun record n st => (record n st.1, st.2)

@[simp] theorem watched_config (s : Session σ) : s.watched.config = s.config := rfl

@[simp] theorem watched_merger (s : Session σ) : s.watched.merger = s.merger := rfl

theorem under_note (s : Session σ) (ns : List Note) : (s.watched.note ns).Under (s.note ns) := by
  rw [note, note, watched]
  cases s.journal with
  | none => exact under_notes ns
  | some record => exact (under_notes ns).recording record

theorem under_merge (s : Session σ) (c : Change) : (s.watched.merge c).Under (s.merge c) :=
  (s.under_note _).bind fun _ => under_pure _

theorem under_prepareFile (s : Session σ) (ref : Option Text) (path : Text) (is : List Instruction) :
    (s.watched.prepareFile ref path is).Under (s.prepareFile ref path is) := by
  rw [prepareFile, prepareFile]
  split
  · exact s.under_merge _
  · refine (under_watched .fetch path (s.store.fetch path ref)).attempt.bind fun answer => ?_
    rcases answer with e | _ | f
    · exact under_pure _
    · exact s.under_merge _
    · exact s.under_merge _

theorem under_prepareFiles (s : Session σ) (ref : Option Text) (gs : List (Text × List Instruction)) :
    (s.watched.prepareFiles ref gs).Under (s.prepareFiles ref gs) := by
  induction gs with
  | nil => exact under_pure _
  | cons g gs ih =>
      exact (s.under_prepareFile ref g.1 g.2).bind fun _ =>
        (s.under_note _).bind fun _ => ih.bind fun _ => under_pure _

theorem under_prepare (s : Session σ) (message : Text) (ref : Option Text)
    (selection : Option (List Int)) :
    (s.watched.prepare message ref selection).Under (s.prepare message ref selection) := by
  rw [prepare, prepare, watched_config]
  refine (s.under_note _).bind fun _ => ?_
  generalize select (Message.parse s.config.fileTag message).instructions selection = selected
  obtain ⟨is, ignored⟩ := selected
  -- with or without a warning, the rest is the same
  have hrest : ∀ batch : List Change → Batch,
      (do s.watched.note [sessionNote ("prepare ".toList ++ message.summary Text.summaryLimit ++
            ": ".toList ++ Text.ofNat is.length ++ " instruction(s) on ".toList ++ s.store.describe)]
          let changes ← s.watched.prepareFiles (s.activeRef ref) (Instruction.groupByPath is)
          return batch changes).Under
      (do s.note [sessionNote ("prepare ".toList ++ message.summary Text.summaryLimit ++
            ": ".toList ++ Text.ofNat is.length ++ " instruction(s) on ".toList ++ s.store.describe)]
          let changes ← s.prepareFiles (s.activeRef ref) (Instruction.groupByPath is)
          return batch changes) := fun batch =>
    (s.under_note _).bind fun _ => (s.under_prepareFiles _ _).bind fun _ => under_pure _
  dsimp only
  split
  · exact (s.under_note _).bind fun _ => hrest _
  · exact hrest _

theorem under_storeChange (s : Session σ) (ref : Option Text) (c : Change) (message : Text) :
    (s.watched.storeChange ref c message).Under (s.storeChange ref c message) := by
  rw [storeChange, storeChange]
  split
  · exact (under_watched .delete c.path _).bind fun _ => under_pure _
  · exact (under_watched .write c.path _).map some

theorem under_commitChange (s : Session σ) (ref : Option Text) (c : Change) :
    (s.watched.commitChange ref c).Under (s.commitChange ref c) := by
  refine (under_ofExcept _).bind fun message => ?_
  refine (s.under_storeChange ref c message).attempt.bind fun answer => ?_
  cases answer with
  | error e => exact (s.under_note _).bind fun _ => under_pure _
  | ok token => exact (s.under_note _).bind fun _ => under_pure _

theorem under_commitChanges (s : Session σ) (ref : Option Text) (cs : List Change) :
    (s.watched.commitChanges ref cs).Under (s.commitChanges ref cs) := by
  induction cs with
  | nil => exact under_pure _
  | cons c cs ih =>
      rw [commitChanges, commitChanges]
      split
      · refine (s.under_commitChange ref c).outcome.bind fun answer => ?_
        cases answer with
        | error e => exact under_pure _
        | ok c => exact ih.bind fun _ => under_pure _
      · exact ih.bind fun _ => under_pure _

/-- **A watched run is the run itself**, with a record of its calls. -/
theorem under_run (s : Session σ) (message : Text) (ref : Option Text) (isDry : Bool) :
    (s.watched.run message ref isDry).Under (s.run message ref isDry) := by
  refine (s.under_prepare message ref none).bind fun b => ?_
  split
  · exact under_pure _
  · have hcommit : (s.watched.commit b ref).Under (s.commit b ref) :=
      (s.under_commitChanges _ b.changes).bind fun _ => under_pure _
    refine hcommit.bind fun answer => ?_
    rcases answer with ⟨b, _ | e⟩
    · exact under_pure b
    · exact under_fail e

end Emend.Session
