import Emend.Text.Quoted

/-!
# Paths that no repository takes

A repository keeps its own files in a directory named `.git`, and takes no file whose path goes through
that name. Some file systems know the directory under other names too: they do not tell letters by case,
do not see certain characters, drop points and blanks at the end, or shorten the name. Such names are
refused on every system, so that a repository means the same on all of them, and so are paths that begin
with a drive on some of them.
-/

namespace Emend.Git

/-- The name of the directory that a repository keeps its own files in. -/
def metadataName : Text := ".git".toList

/-- Some file systems do not see the character. -/
def isUnseen (c : Char) : Bool :=
  [(0x200C, 0x200F), (0x202A, 0x202E), (0x206A, 0x206F), (0xFEFF, 0xFEFF)].any fun (first, last) =>
    first ≤ c.toNat && c.toNat ≤ last

/-- The text ends here, or goes on with a colon, for a reader that drops points and blanks. -/
def endsForSome : Text → Bool
  | [] => true
  | c :: t => c = ':' || ((c = '.' || c = ' ') && endsForSome t)

/-- The name means the directory of a repository on some file system. -/
def isMetadata (name : Text) : Bool :=
  let lower := name.map Char.toLower
  let shortened (front : Text) : Bool :=
    front.isPrefixOf lower && endsForSome (lower.drop front.length)
  lower.filter (!isUnseen ·) = metadataName || shortened metadataName || shortened "git~1".toList

/-- The names of a path, for a reader to whom a backslash is a slash. -/
def anyNames (path : Text) : List Text :=
  (Text.splitOn '/' path).flatMap (Text.splitOn '\\')

/-- A reader to whom a backslash is a slash sees a drive at the front of the path: a character and a
colon, or two slashes for the name of another machine. -/
def hasDrive : Text → Bool
  | a :: b :: _ => b = ':' || [a, b].all fun c => c = '/' || c = '\\'
  | _ => false

/-- Refuses a path that no repository takes. -/
def checkPath (path : Text) : Except Text Unit :=
  if hasDrive path then .error ("Invalid repository path ".toList ++ Text.quoted path)
  else if (anyNames path).any isMetadata then
    .error ("Repository path aliases Git metadata: ".toList ++ Text.quoted path)
  else .ok ()

example : isMetadata ".GIT. ".toList = true ∧ isMetadata "git~1:x".toList = true ∧
    isMetadata ".gitignore".toList = false := by decide

end Emend.Git
