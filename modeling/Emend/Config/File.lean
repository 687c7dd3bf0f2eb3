import Emend.Config.Basic
import Emend.Data.Literal
import Emend.Host
import Emend.Yaml.Document

/-!
# The configuration file

The settings are kept in a YAML file under the key `patchflow`. `Config.load` reads such a file, which
has to exist; `Config.loadOrDefault` takes the file of the standard name if there is one and otherwise
the default configuration.
-/

namespace Emend.Config

/-- The key under which the settings stand. -/
def sectionName : Text := "patchflow".toList

/-- The standard name of the file. -/
def standardFile : Text := "patchflow.yaml".toList

/-- The failure that a faulty YAML text in the file `file` is. -/
def yamlFailure (file : Text) : Yaml.Error → Failure
  | .malformed _ => .unacceptable ("Invalid YAML in '".toList ++ file ++ ['\'']) none
  | .notText e => .notText e
  | .scalar (.bad message) => .unacceptable message none
  | .scalar fault => .scalar fault

/-- The value that the bytes of the file `file` spell. -/
def valueOfBytes (file : Text) (bs : Bytes) : Except Failure Value :=
  (Yaml.read bs).mapError (yamlFailure file)

/-- The settings in a value: the record under their key in a record. A value that says nothing counts
as an empty record. -/
def settingsIn (file : Text) (v : Value) : Except Failure (List (Value × Value)) :=
  let refuse (before after : String) : Except Failure (List (Value × Value)) :=
    .error (.unacceptable (before.toList ++ file ++ after.toList) none)
  match if v.isVoid then .record [] else v with
  | .record fields =>
    match (Value.lookup? fields sectionName).getD .null with
    | .null => refuse "'patchflow' section missing in " "."
    | .record settings => .ok settings
    | _ => refuse "'patchflow' section in " " must be a mapping."
  | _ => refuse "'" "' must contain a mapping at the top level."

/-- The key is a text. -/
def isTextKey (f : Value × Value) : Bool := f.1.text?.isSome

/-- The configuration of the settings in the file `file`. -/
def ofSettings (file : Text) (settings : List (Value × Value)) : Except Failure Config :=
  if !settings.all isTextKey then .error .unnamedSetting
  else match check (Value.textFields settings) with
    | .valid c => .ok c
    | .invalid es => .error (.unacceptable ("Invalid configuration in ".toList ++ file) (some es))

/-- The configuration in the bytes of the file `file`. -/
def ofBytes (file : Text) (bs : Bytes) : Except Failure Config := do
  ofSettings file (← settingsIn file (← valueOfBytes file bs))

/-- The configuration in a file, which has to exist. -/
def load (path : Text) : Act Host Config := do
  let l ← Host.place path
  match ← (Host.bytesAt l).outcome with
  | .ok bs => Act.ofExcept (ofBytes l.shown bs)
  | .error (.os ⟨.noEntry, _⟩) => Act.fail (.noConfigFile l.shown)
  | .error e => Act.fail e

/-- The configuration in a file that is named, or else in the file of the standard name, which need
not exist. -/
def loadOrDefault : Option Text → Act Host Config
  | some path => load path
  | none => do
    if ← Host.isThere (← Host.place standardFile) then load standardFile else return {}

end Emend.Config
