import Emend.Data.Field
import Emend.Edit.Merge
import Emend.Git.Revision
import Emend.Text.Template
import Emend.Yaml.Error

/-!
# Failures

What can go wrong outside the pure parts. A store refuses with a `StoreError`, which concerns one file
and which a session takes as that file's fate. Every other failure ends the operation at hand.
-/

namespace Emend

/-- A store's refusal, and the path it concerns. -/
structure StoreError where
  message : Text
  path : Option Text := none
  deriving DecidableEq, Repr

/-- Why the operating system refuses an operation on a file. -/
inductive OsFault where
  | noEntry
  | alreadyExists
  | notDirectory
  | isDirectory
  | nameTooLong
  deriving DecidableEq, Repr

namespace OsFault

/-- The number of the fault. -/
def code : OsFault → Nat
  | noEntry => 2
  | alreadyExists => 17
  | notDirectory => 20
  | isDirectory => 21
  | nameTooLong => 36

/-- The fault in words. -/
def words : OsFault → String
  | noEntry => "No such file or directory"
  | alreadyExists => "File exists"
  | notDirectory => "Not a directory"
  | isDirectory => "Is a directory"
  | nameTooLong => "File name too long"

end OsFault

/-- A refusal of the operating system, and the path it concerns. -/
structure OsError where
  fault : OsFault
  path : Text
  deriving DecidableEq, Repr

/-- The refusal in words. -/
def OsError.message (e : OsError) : Text :=
  "[Errno ".toList ++ Text.ofNat e.fault.code ++ "] ".toList ++ e.fault.words.toList ++ ": ".toList ++
    Text.quoted e.path

/-- The families of names that an input can spell. -/
inductive Family where
  | operation
  | searchMode
  | anchorPolicy
  | diffKind
  | mergeErrorKind
  | changeStatus
  deriving DecidableEq, Repr

/-- The family's name in reports. -/
def Family.name : Family → String
  | operation => "Operation"
  | searchMode => "AnchorMode"
  | anchorPolicy => "StrictAnchorMode"
  | diffKind => "DiffKind"
  | mergeErrorKind => "MergeErrorKind"
  | changeStatus => "FileChangeStatus"

/-- What went wrong. -/
inductive Failure where
  /-- A store refused. -/
  | store (e : StoreError)
  /-- The operating system refused. -/
  | os (e : OsError)
  /-- There is no configuration file at that path. -/
  | noConfigFile (path : Text)
  /-- Bytes that should be text are not. -/
  | notText (e : Utf8.DecodeError)
  /-- A record has faulty fields. -/
  | fields (errors : List FieldError)
  /-- An input is not acceptable, with its faulty fields if it is a record. -/
  | unacceptable (message : Text) (errors : Option (List FieldError))
  /-- A block of a message holds no instruction. -/
  | block (message : Text)
  /-- A template cannot be filled. -/
  | template (e : Template.Error)
  /-- A setting is named by something that is not a text. -/
  | unnamedSetting
  /-- A replacement of settings names the configuration itself. -/
  | reservedSetting (name : Text)
  /-- A scalar of a data file has no value of the kind that it is declared as. -/
  | scalar (fault : Yaml.ScalarFault)
  /-- Lists and records of a data file are nested too deeply; what cannot be opened is a list or not. -/
  | tooDeep (isList : Bool)
  /-- A text is no revision. -/
  | revision (e : Git.RevisionError)
  /-- Times with and without an offset cannot be compared. -/
  | incomparableTimes
  /-- The home directory of a user is not known. -/
  | unknownHome
  deriving DecidableEq, Repr

namespace Failure

/-- An input that is not acceptable. -/
def refuse (message : String) : Failure := unacceptable message.toList none

/-- A text that names no member of its family. -/
def notMember (family : Family) (t : Text) : Failure :=
  unacceptable (Text.quoted t ++ s!" is not a valid {family.name}".toList) none

/-- The failure in words. -/
def message : Failure → Text
  | store e => e.message
  | os e => e.message
  | noConfigFile path =>
    "Patchflow configuration file '".toList ++ path ++ "' not found.".toList
  | notText e => e.message
  | fields _ => []
  | unacceptable m _ => m
  | block m => m
  | template e => e.message
  | unnamedSetting => "keywords must be strings".toList
  | reservedSetting name =>
    "PatchflowConfig.with_overrides() got multiple values for argument ".toList ++ Text.quoted name
  | scalar fault => fault.message
  | tooDeep isList =>
    "maximum recursion depth exceeded while decoding a JSON ".toList ++
      (if isList then "array" else "object").toList ++ " from a unicode string".toList
  | revision e => e.message
  | incomparableTimes => "can't compare offset-naive and offset-aware datetimes".toList
  | unknownHome => "Could not determine home directory.".toList

/-- The failure lies in the input, in the configuration or in a store, and not in the way the program
works with them. -/
def isReported : Failure → Bool
  | store _ | noConfigFile _ | notText _ | fields _ | unacceptable _ _ | block _ => true
  | os e => e.fault = .noEntry
  | template e => e.isMalformed
  | unnamedSetting | reservedSetting _ | scalar _ | tooDeep _ | revision _ | incomparableTimes
  | unknownHome => false

end Failure

end Emend
