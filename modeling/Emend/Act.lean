import Emend.Failure

/-!
# Actions

An action runs in a state of type `σ`, which stands for everything outside: files, a repository, a
remote service. It answers a value or a failure, the state it leaves, and the notes it made for the
run's log. The state and the notes of an action that fails are kept: nothing is undone.
-/

namespace Emend

/-- The part of the program that a note comes from. -/
inductive Channel where
  | parse
  | merge
  | store
  | session
  deriving DecidableEq, Repr

/-- A line for the run's log. -/
structure Note where
  channel : Channel
  isWarning : Bool := false
  text : Text
  deriving DecidableEq, Repr

/-- What an action answers. -/
structure Reply (σ α : Type) where
  result : Except Failure α
  state : σ
  notes : List Note := []

/-- Something that is done in a state and may fail. -/
def Act (σ α : Type) := σ → Reply σ α

namespace Act

variable {σ τ α β : Type}

/-- Answers `a` and leaves the state alone. -/
protected def pure (a : α) : Act σ α := fun s => ⟨.ok a, s, []⟩

/-- Runs `x`, and if that goes well `f` on its answer in the state it leaves. -/
protected def bind (x : Act σ α) (f : α → Act σ β) : Act σ β := fun s =>
  match x s with
  | ⟨.error e, s', ns⟩ => ⟨.error e, s', ns⟩
  | ⟨.ok a, s', ns⟩ =>
    let r := f a s'
    ⟨r.result, r.state, ns ++ r.notes⟩

instance : Monad (Act σ) where
  pure := Act.pure
  bind := Act.bind

/-- Fails and leaves the state alone. -/
def fail (e : Failure) : Act σ α := fun s => ⟨.error e, s, []⟩

/-- Refuses as a store does. -/
def refuse (message : Text) (path : Option Text) : Act σ α := fail (.store ⟨message, path⟩)

/-- The state. -/
def get : Act σ σ := fun s => ⟨.ok s, s, []⟩

/-- Replaces the state. -/
def set (s : σ) : Act σ Unit := fun _ => ⟨.ok (), s, []⟩

/-- Changes the state. -/
def modify (f : σ → σ) : Act σ Unit := fun s => ⟨.ok (), f s, []⟩

/-- Leaves a note. -/
def note (n : Note) : Act σ Unit := fun s => ⟨.ok (), s, [n]⟩

/-- Leaves several notes. -/
def notes (ns : List Note) : Act σ Unit := fun s => ⟨.ok (), s, ns⟩

/-- A result that is there already. -/
def ofExcept (r : Except Failure α) : Act σ α := fun s => ⟨r, s, []⟩

/-- A function of the state. -/
def reading (f : σ → Except Failure α) : Act σ α := fun s => ⟨f s, s, []⟩

/-- Makes a store's refusal an answer. Any other failure stays one. -/
def attempt (x : Act σ α) : Act σ (Except StoreError α) := fun s =>
  match x s with
  | ⟨.ok a, s', ns⟩ => ⟨.ok (.ok a), s', ns⟩
  | ⟨.error (.store e), s', ns⟩ => ⟨.ok (.error e), s', ns⟩
  | ⟨.error e, s', ns⟩ => ⟨.error e, s', ns⟩

/-- Makes every failure an answer. -/
def outcome (x : Act σ α) : Act σ (Except Failure α) := fun s =>
  let r := x s
  ⟨.ok r.result, r.state, r.notes⟩

/-- Records the notes of an action in the state at its end. None are left then. -/
def recording (record : Note → σ → σ) (x : Act σ α) : Act σ α := fun s =>
  let r := x s
  ⟨r.result, r.notes.foldl (fun s n => record n s) r.state, []⟩

/-- Runs an action on a part of a larger state. -/
def focus (get : τ → σ) (set : σ → τ → τ) (x : Act σ α) : Act τ α := fun t =>
  let r := x (get t)
  ⟨r.result, set r.state t, r.notes⟩

@[simp] theorem pure_apply (a : α) (s : σ) : (pure a : Act σ α) s = ⟨.ok a, s, []⟩ := rfl

theorem bind_apply (x : Act σ α) (f : α → Act σ β) (s : σ) :
    (x >>= f) s = match x s with
      | ⟨.error e, s', ns⟩ => ⟨.error e, s', ns⟩
      | ⟨.ok a, s', ns⟩ => ⟨(f a s').result, (f a s').state, ns ++ (f a s').notes⟩ := rfl

end Act

end Emend
