import Emend.Store.Basic
import Emend.Store.Hosting
import Emend.Text.Blank

/-!
# A hosted repository as a store

The files of a repository on a hosting service. The token of a file is the identifier of its version
there, so the service itself refuses a write or delete that was meant for another version. A write
without a token first looks for a version to replace.
-/

namespace Emend

/-- A repository, named by its owner and its name. -/
structure GitHub where
  repository : Text
  deriving DecidableEq, Repr

namespace GitHub

/-- The repository of that name, which has to hold a slash. -/
def ofName (repository : Text) : Except Failure GitHub :=
  if repository.contains '/' then .ok ⟨repository⟩
  else .error (.store ⟨"Repository must look like 'owner/name', got ".toList ++
    Text.quoted repository ++ ['.'], none⟩)

/-- The access token to use: the one given, or else the one in the environment variable. -/
def accessToken (given : Option Text) (environment : Text → Option Text) (variableName : Text) :
    Except Failure Text :=
  let found := match given.getD [] with
    | [] => (environment variableName).getD []
    | t => t
  match Text.strip found with
  | [] => .error (.store ⟨"Environment variable '".toList ++ variableName ++
      "' is not set. Provide a GitHub token to use the github store.".toList, none⟩)
  | t => .ok t

/-- The refusal of a service that does not open the repository. -/
def cannotOpen (g : GitHub) (f : HostingFault) : StoreError :=
  ⟨"Cannot open repository '".toList ++ g.repository ++ "': ".toList ++ f.message, none⟩

section

variable {ρ α : Type}

/-- A revision that is named. -/
def named (ref : Option Text) : Option Text := ref.filter (!·.isEmpty)

/-- The revision in the log. -/
def refName (ref : Option Text) : Text := (named ref).getD "default".toList

/-- Makes a request of the service. -/
def request (call : ρ → Except HostingFault α × ρ) : Act ρ (Except HostingFault α) := fun r =>
  let (a, r) := call r
  ⟨.ok a, r, []⟩

/-- Refuses since the service did. -/
def refuse (verb : String) (path : Text) (f : HostingFault) : Act ρ α :=
  Act.refuse ("Failed to ".toList ++ verb.toList ++ " '".toList ++ path ++ "': ".toList ++ f.message)
    (some path)

/-- The note of an operation on a path at a revision. -/
def operationNote (verb : String) (path : Text) (ref : Option Text) (more : Text) : Note :=
  storeNote (verb.toList ++ ' ' :: path ++ '@' :: refName ref ++ more)

/-- The text of the file at a path. -/
def fetch (h : Hosting ρ) (path : Text) (ref : Option Text) : Act ρ (Option Fetched) := do
  match ← request (h.getContents path (named ref)) with
  | .error .unknownObject =>
    Act.note (operationNote "fetch" path ref ": not found".toList)
    return none
  | .error f => refuse "fetch" path f
  | .ok .directory => Act.refuse ('\'' :: path ++ "' is a directory.".toList) (some path)
  | .ok (.file bs version) =>
    match Utf8.decode bs with
    | .error e =>
      Act.refuse ('\'' :: path ++ "' is not valid utf-8 text: ".toList ++ e.message) (some path)
    | .ok text =>
      Act.note (operationNote "fetch" path ref (": sha=".toList ++ version))
      return some ⟨text, version⟩

/-- The message of a commit: the one given, or else the verb with the path. -/
def commitMessage (verb : String) (path : Text) (message : Option Text) : Text :=
  match message.getD [] with
  | [] => verb.toList ++ ' ' :: path
  | m => m

/-- Makes the text that of the file at a path, by one commit. -/
def write (h : Hosting ρ) (path text : Text) (token ref message : Option Text) : Act ρ Token := do
  let token ← match token with
    | some t => pure (some t)
    | none => do pure ((← fetch h path ref).map (·.token))
  let made ← request (match token with
    | none => h.createFile path (commitMessage "Create" path message) text (named ref)
    | some t => h.updateFile path (commitMessage "Update" path message) text t (named ref))
  match made with
  | .error f => refuse "write" path f
  | .ok c =>
    Act.note (operationNote "write" path ref
      (": sha=".toList ++ c.version ++ " commit=".toList ++ c.commit))
    return c.version

/-- Refuses to delete a file without a token. -/
def refuseTokenless (path : Text) : Act ρ α :=
  Act.refuse ("Deleting '".toList ++ path ++
    "' requires the blob sha from a previous fetch.".toList) (some path)

/-- Deletes the file at a path, by one commit. -/
def delete (h : Hosting ρ) (path : Text) (token ref message : Option Text) : Act ρ Unit := do
  match token.getD [] with
  | [] => refuseTokenless path
  | t =>
    match ← request (h.deleteFile path (commitMessage "Delete" path message) t (named ref)) with
    | .error f => refuse "delete" path f
    | .ok () => Act.note (operationNote "delete" path ref [])

/-- The repository as a store, on a service that opened it. -/
def store (g : GitHub) (h : Hosting ρ) : Store ρ where
  describe := "github:".toList ++ g.repository
  fetch := fetch h
  write := write h
  delete := delete h

/-- The repository as a store, on a service that does not open it. -/
def closedStore (g : GitHub) (f : HostingFault) : Store ρ where
  describe := "github:".toList ++ g.repository
  fetch _ _ := Act.fail (.store (g.cannotOpen f))
  write _ _ _ _ _ := Act.fail (.store (g.cannotOpen f))
  delete path token _ _ :=
    if (token.getD []).isEmpty then refuseTokenless path else Act.fail (.store (g.cannotOpen f))

end

end GitHub

end Emend
