import Emend.Config.Integer
import Emend.Message.Parse
import Emend.Text.Template

/-!
# Configuration

The settings of a session. `Config.check` makes a configuration of named values: it fills in what is
not named, reads numbers and texts leniently, and reports every faulty value, the declared settings
first in their order and then the unknown names in theirs. `Config.settings` gives the named values of
a configuration back, and `Config.withOverrides` checks them anew with some of them replaced.
-/

namespace Emend

/-- The kinds of stores. -/
inductive StoreKind where
  | localFiles
  | git
  | github
  deriving DecidableEq, Repr

namespace StoreKind

/-- Every kind. -/
def all : List StoreKind := [localFiles, git, github]

/-- The kind's name in files and on the command line. -/
def name : StoreKind → String
  | localFiles => "local"
  | git => "git"
  | github => "github"

/-- The kind of that name. -/
def ofName? (t : Text) : Option StoreKind := all.find? (·.name.toList = t)

end StoreKind

/-- The settings of a session. -/
structure Config where
  fileTag : Message.FileTag := .standard
  anchorMode : AnchorPolicy := .exactThenNormalized
  store : StoreKind := .localFiles
  root : Text := ".".toList
  repository : Option Text := none
  branch : Option Text := none
  tokenEnvVar : Text := "GITHUB_TOKEN".toList
  commitMessage : Text := "patchflow: \x7boperation\x7d \x7bpath\x7d".toList
  logsRoot : Text := "logs".toList
  historyFile : Option Text := none
  /-- How many entries the history keeps; 0 keeps all. -/
  historyLimit : Nat := 50
  deriving DecidableEq, Repr

namespace Config

/-! ## Checking single values -/

/-- A text. Bytes count as the text they spell. -/
def checkText : Value → Except Fault Text
  | .text t => .ok t
  | .brokenText => .error .badUnicode
  | .binary bs => match Utf8.decode bs with
    | .ok t => .ok t
    | .error _ => .error .badUnicode
  | _ => .error .notText

/-- A text that may be absent. -/
def checkOptionalText : Value → Except Fault (Option Text)
  | .null => .ok none
  | v => some <$> checkText v

/-- The name of a tag, which may stand in square brackets and must not be blank. -/
def checkFileTag (v : Value) : Except Fault Message.FileTag := do
  let t ← checkText v
  if t.isEmpty then .error .tooShort
  else match Text.strip (Text.stripChars ['[', ']'] (Text.strip t)) with
    | [] => .error (.rule "file_tag must not be blank".toList)
    | name => .ok ⟨name⟩

/-- The name of a policy. -/
def checkPolicy (v : Value) : Except Fault AnchorPolicy :=
  match (checkText v).toOption.bind AnchorPolicy.ofName? with
  | some p => .ok p
  | none => .error .notMember

/-- The name of a kind of store, which must be a text as it stands. -/
def checkStore (v : Value) : Except Fault StoreKind :=
  match v.text?.bind StoreKind.ofName? with
  | some k => .ok k
  | none => .error .notLiteral

/-- A repository's name: an owner and a name with one slash between. -/
def checkRepository (v : Value) : Except Fault (Option Text) := do
  match ← checkOptionalText v with
  | none => .ok none
  | some t =>
    if t.count '/' = 1 then .ok (some t)
    else .error (.rule "repository must look like 'owner/name'".toList)

/-! ## Checking all settings -/

/-- The names of the settings. -/
def names : List String :=
  ["file_tag", "anchor_mode", "store", "root", "repository", "branch", "token_env_var",
   "commit_message", "logs_root", "history_file", "history_limit"]

/-- Checks the setting of that name, if there is one, and takes the given value otherwise. -/
def setting {α : Type} (named : List (Text × Value)) (name : String) (otherwise : α)
    (check : Value → Except Fault α) : Checked α :=
  match named.lookup name.toList with
  | none => .valid otherwise
  | some v => (Checked.ofExcept (check v)).inside (.name name.toList)

/-- Refuses the names of no setting. -/
def unknownNames (named : List (Text × Value)) : Checked Unit :=
  match named.filter fun (n, _) => !names.any (·.toList = n) with
  | [] => .valid ()
  | unknown => .invalid (unknown.map fun (n, _) => ⟨[.name n], .notPermitted⟩)

/-- The configuration of the named values. -/
def check (named : List (Text × Value)) : Checked Config :=
  let d : Config := {}
  let make := fun fileTag anchorMode store root repository branch tokenEnvVar commitMessage logsRoot
      historyFile historyLimit (_ : Unit) =>
    ({ fileTag, anchorMode, store, root, repository, branch, tokenEnvVar, commitMessage, logsRoot,
       historyFile, historyLimit } : Config)
  (setting named "file_tag" d.fileTag checkFileTag).map make
    |>.andAlso (setting named "anchor_mode" d.anchorMode checkPolicy)
    |>.andAlso (setting named "store" d.store checkStore)
    |>.andAlso (setting named "root" d.root checkText)
    |>.andAlso (setting named "repository" d.repository checkRepository)
    |>.andAlso (setting named "branch" d.branch checkOptionalText)
    |>.andAlso (setting named "token_env_var" d.tokenEnvVar checkText)
    |>.andAlso (setting named "commit_message" d.commitMessage checkText)
    |>.andAlso (setting named "logs_root" d.logsRoot checkText)
    |>.andAlso (setting named "history_file" d.historyFile checkOptionalText)
    |>.andAlso (setting named "history_limit" d.historyLimit checkCount)
    |>.andAlso (unknownNames named)

/-- A text that may be absent as a value. -/
def optionalValue : Option Text → Value
  | none => .null
  | some t => .text t

/-- The settings by name. -/
def settings (c : Config) : List (Text × Value) :=
  [("file_tag".toList, .text c.fileTag.name), ("anchor_mode".toList, .text c.anchorMode.name.toList),
   ("store".toList, .text c.store.name.toList), ("root".toList, .text c.root),
   ("repository".toList, optionalValue c.repository), ("branch".toList, optionalValue c.branch),
   ("token_env_var".toList, .text c.tokenEnvVar), ("commit_message".toList, .text c.commitMessage),
   ("logs_root".toList, .text c.logsRoot), ("history_file".toList, optionalValue c.historyFile),
   ("history_limit".toList, .int c.historyLimit)]

/-- Puts a value under a name: in its place if the name is there, at the end otherwise. -/
def put (named : List (Text × Value)) (name : Text) (v : Value) : List (Text × Value) :=
  if named.any (·.1 = name) then named.map fun (n, w) => (n, if n = name then v else w)
  else named ++ [(name, v)]

/-- The named values with others put in; a null among these changes nothing. -/
def override (named overrides : List (Text × Value)) : List (Text × Value) :=
  overrides.foldl (fun named (n, v) => match v with
    | .null => named
    | v => put named n v) named

/-- The configuration with some settings replaced, checked as a whole. -/
def withOverrides (c : Config) (overrides : List (Text × Value)) : Except (List FieldError) Config :=
  (check (override c.settings overrides)).toExcept

/-- The message template filled for a path and the name of an operation. -/
def fillMessage (c : Config) (path operation : Text) : Except Template.Error Text :=
  Template.fill [("path".toList, path), ("operation".toList, operation)] c.commitMessage

/-- The message under which a change of a file is stored. -/
def messageFor (c : Config) (path : Text) (op : Operation) : Except Template.Error Text :=
  c.fillMessage path op.name.toList

end Config

end Emend
