import Emend.Proofs.Act
import Emend.Store.Memory

/-!
# Shared stores

A store that others use as well. Each call is done in one go, but before it others may have done
anything to the store's state: `others n` is what they do before call number `n`. Of every call the
shared store keeps the state that the call found and the one that it left, so what a call did can be
told from what others did.
-/

namespace Emend

variable {σ α β : Type}

/-- A call of a shared store that is over. -/
structure Visit (σ : Type) where
  method : StoreMethod
  path : Text
  /-- The state in which the call began. -/
  found : σ
  /-- The state in which it ended. -/
  left : σ

/-- The state of a shared store. -/
structure Shared (σ : Type) where
  state : σ
  /-- What others do before a call, by the number of calls before it. -/
  others : Nat → σ → σ
  /-- The calls so far. -/
  visits : List (Visit σ) := []

namespace Act

/-- The action as a call of a shared store. -/
def amid (method : StoreMethod) (path : Text) (x : Act σ α) : Act (Shared σ) α := fun s =>
  let found := s.others s.visits.length s.state
  let r := x found
  ⟨r.result, { s with state := r.state, visits := s.visits ++ [⟨method, path, found, r.state⟩] },
    r.notes⟩

end Act

/-- The store as others use it as well. -/
def Store.amid (store : Store σ) : Store (Shared σ) where
  describe := store.describe
  fetch path ref := (store.fetch path ref).amid .fetch path
  write path text token ref message := (store.write path text token ref message).amid .write path
  delete path token ref message := (store.delete path token ref message).amid .delete path

end Emend
