import Emend.Store.Basic

/-!
# Demands on a store

What is asked of a store for a path, so that the three operations can be spoken of at once.
-/

namespace Emend

/-- What a store is asked to do with the file at a path. -/
inductive Demand where
  | fetch (ref : Option Text)
  | write (text : Text) (token ref message : Option Text)
  | delete (token ref message : Option Text)
  deriving DecidableEq, Repr

namespace Demand

/-- What comes of a demand that is met. -/
inductive Answer where
  | fetched (found : Option Fetched)
  | written (token : Token)
  | deleted
  deriving DecidableEq, Repr

end Demand

/-- The store is given a demand for a path. -/
def Store.serve {σ : Type} (s : Store σ) (path : Text) : Demand → Act σ Demand.Answer
  | .fetch ref => .fetched <$> s.fetch path ref
  | .write text token ref message => .written <$> s.write path text token ref message
  | .delete token ref message => (fun _ => .deleted) <$> s.delete path token ref message

/-- The state after demands one after the other, whatever comes of each. -/
def Store.run {σ : Type} (s : Store σ) : List (Text × Demand) → σ → σ
  | [], w => w
  | (path, k) :: ks, w => s.run ks (s.serve path k w).state

end Emend
