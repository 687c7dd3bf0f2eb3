import Emend.Digest.Sha1
import Emend.Disk.Basic
import Emend.Store.Basic

/-!
# Local files as a store

The files below a root directory. A path is read relative to the root and must not lead out of it.
The token of a file is the identifier of its bytes, so a write or delete that carries a token is
refused when the bytes have changed since.
-/

namespace Emend

/-- A root directory. -/
structure LocalFiles where
  root : Path
  deriving DecidableEq, Repr

namespace LocalFiles

/-- The place that a text names, relative to `cwd`. A first name that begins with `~` stands for a home
directory; only the one that `~` alone stands for is known. -/
def rootPlace (d : Disk) (t : Text) : Except Failure Path :=
  let l := Location.ofText d.cwd t
  match l.slashes, l.names with
  | 0, ('~' :: user) :: names =>
    if user.isEmpty then .ok (Path.follow d.home names) else .error .unknownHome
  | _, names => .ok (Path.follow l.start names)

/-- Texts with a null character name no place. -/
def checkText (t : Text) : Except Failure Unit :=
  if t.contains '\x00' then .error (.refuse "embedded null byte") else .ok ()

/-- The local files below the directory that a text names. -/
def atRoot (d : Disk) (t : Text) : Except Failure LocalFiles := do
  checkText t
  let root ← rootPlace d t
  match d.look (.ofPath root) with
  | .error e => .error (.os e)
  | .ok (some .directory) => return ⟨root⟩
  | .ok _ =>
    .error (.store ⟨"Workspace root '".toList ++ root.text ++ "' is not a directory.".toList, none⟩)

/-- The place that a path of the store means. -/
def resolve (s : LocalFiles) (path : Text) : Except Failure Path := do
  checkText path
  let place := Path.resolve s.root path
  match Path.below? s.root place with
  | some _ => return place
  | none =>
    .error (.store ⟨"Path '".toList ++ path ++ "' escapes root '".toList ++ s.root.text ++
      "'.".toList, some path⟩)

/-- A refusal that concerns a path. -/
def refuse {α : Type} (path : Text) (before after : String) : Act Disk α :=
  Act.refuse (before.toList ++ '\'' :: path ++ '\'' :: after.toList) (some path)

/-- Takes what the disk answers; its refusal becomes the store's, which could not do what `verb`
says. -/
def orRefuse {α : Type} (verb : String) (path : Text) : Except OsError α → Act Disk α
  | .ok a => return a
  | .error e => Act.refuse ("Failed to ".toList ++ verb.toList ++ " '".toList ++ path ++
      "': ".toList ++ e.message) (some path)

/-- What stands at a place. -/
def look (place : Path) : Act Disk (Option Entry) :=
  Act.reading fun d => (d.look (.ofPath place)).mapError .os

/-- The bytes of the file at a place. -/
def read (path : Text) (place : Path) : Act Disk Bytes := do
  orRefuse "read" path ((← Act.get).readFile (.ofPath place))

/-- Refuses unless the file at the place is the one that the token was given for. -/
def checkToken (path : Text) (place : Path) (token : Option Token) : Act Disk Unit := do
  match token with
  | none => return
  | some token =>
    if (← look place).isNone then refuse path "" " no longer exists."
    let current := Digest.blobId (← read path place)
    if current != token then
      Act.refuse ('\'' :: path ++ "' changed since it was fetched (expected ".toList ++
        token.take 10 ++ ", found ".toList ++ current.take 10 ++ ").".toList) (some path)

/-- How many bytes there are, in words. -/
def byteCount (bs : Bytes) : Text := Text.ofNat bs.length ++ " bytes".toList

/-- The text of bytes that a path stands for, `origin` telling where they come from. -/
def decodeText {σ : Type} (path origin : Text) (bs : Bytes) : Act σ Text :=
  match Utf8.decode bs with
  | .ok t => return t
  | .error e => Act.refuse ('\'' :: path ++ '\'' :: origin ++ " is not valid utf-8 text: ".toList ++
      e.message) (some path)

/-- The text of the file at a path. -/
def fetch (s : LocalFiles) (path : Text) : Act Disk (Option Fetched) := do
  let place ← Act.ofExcept (s.resolve path)
  match ← look place with
  | none =>
    Act.note (storeNote ("fetch ".toList ++ path ++ ": not found".toList))
    return none
  | some .directory => refuse path "" " is not a regular file."
  | some (.file _) =>
    let bs ← read path place
    let text ← decodeText path [] bs
    Act.note (storeNote ("fetch ".toList ++ path ++ ": ".toList ++ byteCount bs))
    return some ⟨text, Digest.blobId bs⟩

/-- Makes the text that of the file at a path. Directories on the way are made. -/
def write (s : LocalFiles) (path text : Text) (token : Option Token) : Act Disk Token := do
  let place ← Act.ofExcept (s.resolve path)
  checkToken path place token
  let bs := Utf8.encode text
  let l := Location.ofPath place
  let (made, d) := (← Act.get).makeDirs l.parent
  Act.set d
  orRefuse "write" path made
  Act.set (← orRefuse "write" path ((← Act.get).writeFile l bs))
  Act.note (storeNote ("write ".toList ++ path ++ ": ".toList ++ byteCount bs))
  return Digest.blobId bs

/-- Deletes the file at a path. -/
def delete (s : LocalFiles) (path : Text) (token : Option Token) : Act Disk Unit := do
  let place ← Act.ofExcept (s.resolve path)
  if (← look place).isNone then refuse path "" " not found for deletion."
  checkToken path place token
  Act.set (← orRefuse "delete" path ((← Act.get).removeFile (.ofPath place)))
  Act.note (storeNote ("delete ".toList ++ path))

/-- The local files as a store. Revisions and messages mean nothing here. -/
def store (s : LocalFiles) : Store Disk where
  describe := "local:".toList ++ s.root.text
  fetch path _ := s.fetch path
  write path text token _ _ := s.write path text token
  delete path token _ _ := s.delete path token

end LocalFiles

end Emend
