import Emend.Text.Basic

/-!
# Edit operations

The seven operations an instruction can ask for, the ways of searching an anchor, and the instruction
itself. Each enumeration has a `name` for its members, which is how messages and files spell them.
-/

namespace Emend

/-- What an instruction does to its file. -/
inductive Operation where
  | create
  | replace
  | deleteFile
  | findReplace
  | deleteContent
  | insertBefore
  | insertAfter
  deriving DecidableEq, Repr

namespace Operation

/-- Every operation. -/
def all : List Operation :=
  [create, replace, deleteFile, findReplace, deleteContent, insertBefore, insertAfter]

/-- The operation's name in messages and files. -/
def name : Operation → String
  | create => "create"
  | replace => "replace"
  | deleteFile => "delete_file"
  | findReplace => "find_replace"
  | deleteContent => "delete_content"
  | insertBefore => "insert_before"
  | insertAfter => "insert_after"

/-- The name in capitals, as the report of an unsupported operation gives it. -/
def capitalName : Operation → String
  | create => "CREATE"
  | replace => "REPLACE"
  | deleteFile => "DELETE_FILE"
  | findReplace => "FIND_REPLACE"
  | deleteContent => "DELETE_CONTENT"
  | insertBefore => "INSERT_BEFORE"
  | insertAfter => "INSERT_AFTER"

/-- What the operation does, for a person to read. -/
def description : Operation → String
  | create => "Create file"
  | replace => "Replace file"
  | deleteFile => "Delete file"
  | findReplace => "Replace between anchors"
  | deleteContent => "Delete between anchors"
  | insertBefore => "Insert before anchor"
  | insertAfter => "Insert after anchor"

/-- The operation edits at an anchor, so it needs a text to search. -/
def requiresAnchor : Operation → Bool
  | create | replace | deleteFile => false
  | findReplace | deleteContent | insertBefore | insertAfter => true

/-- The operation of that name. -/
def ofName? (t : Text) : Option Operation := all.find? (·.name.toList = t)

theorem ofName?_name (o : Operation) : ofName? o.name.toList = some o := by cases o <;> decide

end Operation

/-- One way of searching an anchor. -/
inductive SearchMode where
  /-- The anchor itself. -/
  | exact
  /-- Its lines, trimmed, as a block of whole lines. -/
  | normalized
  /-- Its words with any blank run between them. -/
  | whitespace
  deriving DecidableEq, Repr

namespace SearchMode

/-- Every mode. -/
def all : List SearchMode := [exact, normalized, whitespace]

/-- The mode's name in messages and files. -/
def name : SearchMode → String
  | exact => "exact"
  | normalized => "normalized"
  | whitespace => "regex"

/-- The mode of that name. -/
def ofName? (t : Text) : Option SearchMode := all.find? (·.name.toList = t)

end SearchMode

/-- Which looser search, if any, runs when an anchor has no exact occurrence. -/
inductive AnchorPolicy where
  | exactOnly
  | exactThenNormalized
  | exactThenWhitespace
  deriving DecidableEq, Repr

namespace AnchorPolicy

/-- Every policy. -/
def all : List AnchorPolicy := [exactOnly, exactThenNormalized, exactThenWhitespace]

/-- The policy's name in files and on the command line. -/
def name : AnchorPolicy → String
  | exactOnly => "exact-only"
  | exactThenNormalized => "exact-then-normalized"
  | exactThenWhitespace => "exact-then-whitespace"

/-- The policy of that name. -/
def ofName? (t : Text) : Option AnchorPolicy := all.find? (·.name.toList = t)

/-- The search that runs when the exact one finds nothing. -/
def fallback : AnchorPolicy → Option SearchMode
  | exactOnly => none
  | exactThenNormalized => some .normalized
  | exactThenWhitespace => some .whitespace

end AnchorPolicy

/-- One edit of one file. -/
structure Instruction where
  path : Text
  operation : Operation
  content : Option Text := none
  anchor : Option Text := none
  anchorEnd : Option Text := none
  /-- The only search to use; the policy decides where this is absent. -/
  mode : Option SearchMode := none
  deriving DecidableEq, Repr

/-- The paths of the instructions, each once, in the order of first appearance. -/
def Instruction.paths (is : List Instruction) : List Text :=
  is.foldl (fun seen i => if seen.contains i.path then seen else seen ++ [i.path]) []

/-- The instructions file by file: paths in the order of first appearance, each with its instructions
in their order. -/
def Instruction.groupByPath (is : List Instruction) : List (Text × List Instruction) :=
  (paths is).map fun p => (p, is.filter (·.path = p))

end Emend
