import Emend.Digest.Sha1
import Emend.Store.Basic

/-!
# A store in memory

Texts by path, with the identifier of a text as its token. The store keeps a record of the calls it
received, and calls can be made to fail by path.
-/

namespace Emend

/-- The operations of a store. -/
inductive StoreMethod where
  | fetch
  | write
  | delete
  deriving DecidableEq, Repr

namespace StoreMethod

/-- Every operation. -/
def all : List StoreMethod := [fetch, write, delete]

/-- The operation's name in reports. -/
def name : StoreMethod → String
  | fetch => "fetch"
  | write => "write"
  | delete => "delete"

/-- The operation of that name. -/
def ofName? (t : Text) : Option StoreMethod := all.find? (·.name.toList = t)

end StoreMethod

/-- A call that a store received, with its arguments. -/
structure StoreCall where
  method : StoreMethod
  path : Text
  token : Option Token := none
  ref : Option Text := none
  message : Option Text := none
  deriving DecidableEq, Repr

/-- Texts by path, the calls received so far, and the calls that fail. -/
structure Memory where
  files : List (Text × Text) := []
  calls : List StoreCall := []
  /-- For an operation and a path, that the operation fails there. A path `*` stands for all. -/
  outages : List (StoreMethod × Text) := []
  deriving Repr

namespace Memory

/-- The text at a path. -/
def get? (m : Memory) (path : Text) : Option Text := m.files.lookup path

/-- The token of the text at a path. -/
def token? (m : Memory) (path : Text) : Option Token :=
  (m.get? path).map fun t => Digest.blobId (Utf8.encode t)

/-- The memory with a text at a path. -/
def put (m : Memory) (path text : Text) : Memory :=
  { m with files := (path, text) :: m.files.filter (·.1 != path) }

/-- The memory without a text at a path. -/
def erase (m : Memory) (path : Text) : Memory :=
  { m with files := m.files.filter (·.1 != path) }

/-- The operation fails for the path. -/
def isOut (m : Memory) (method : StoreMethod) (path : Text) : Bool :=
  m.outages.contains (method, path) || m.outages.contains (method, ['*'])

/-- The memory in which an operation fails for these paths and no others. -/
def setOutage (m : Memory) (method : StoreMethod) (paths : List Text) : Memory :=
  { m with outages := m.outages.filter (·.1 != method) ++ paths.map (method, ·) }

/-- Records a call, and fails if it is meant to. -/
def receive (c : StoreCall) : Act Memory Unit := do
  Act.modify fun m => { m with calls := m.calls ++ [c] }
  if (← Act.get).isOut c.method c.path then
    Act.refuse (c.method.name.toList ++ " unavailable".toList) (some c.path)

/-- Refuses since the text at the path is another one. -/
def refuseChanged (path : Text) : Act Memory Unit :=
  Act.refuse ('\'' :: path ++ "' changed since it was fetched.".toList) (some path)

/-- The memory as a store. -/
def store : Store Memory where
  describe := "memory".toList
  fetch path ref := do
    receive { method := .fetch, path, ref }
    return ((← Act.get).get? path).map fun t => ⟨t, Digest.blobId (Utf8.encode t)⟩
  write path text token ref message := do
    receive { method := .write, path, token, ref, message }
    if token.isSome ∧ token ≠ (← Act.get).token? path then refuseChanged path
    Act.modify (·.put path text)
    return Digest.blobId (Utf8.encode text)
  delete path token ref message := do
    receive { method := .delete, path, token, ref, message }
    if token ≠ (← Act.get).token? path then refuseChanged path
    Act.modify (·.erase path)

end Memory

end Emend
