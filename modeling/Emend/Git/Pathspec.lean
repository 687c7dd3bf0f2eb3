import Emend.Disk.Path
import Emend.Git.Object
import Emend.Text.Wildcard

/-!
# Pathspecs

A pathspec picks files of an index. It is a path in which `*`, `?` and classes in square brackets stand
for other characters, and it picks the files at that path, at the paths it stands for, and below it.
Signs in front of it, behind a colon, change its meaning: `:/` for the top, `:!` for the files that are
not picked, and words in parentheses.

So a plain path picks its own file only as long as it has none of these characters. `removal` works out
what is left of an index when the files that a path picks, read as a pathspec, are taken out.
-/

namespace Emend.Git

/-- What a pathspec asks of an attribute of a file. -/
inductive AttributeDemand where
  /-- Nothing is said of the attribute. -/
  | isUnsaid
  /-- Something is. -/
  | isSaid
  deriving DecidableEq, Repr

/-- A path pattern with what the signs in front of it say. -/
structure Pathspec where
  pattern : Text
  /-- It is read from the top of the working tree, and as it stands. -/
  fromTop : Bool := false
  /-- It picks the files that it does not match. -/
  excludes : Bool := false
  /-- No character stands for others. -/
  isLiteral : Bool := false
  /-- No wildcard stands for a slash. -/
  bySegments : Bool := false
  ignoresCase : Bool := false
  /-- It is read from the top, and so many bytes at its front as they stand, case and all. -/
  fixedFront : Option Nat := none
  /-- What it asks of the attributes of a file. -/
  attributes : Option (List AttributeDemand) := none
  deriving DecidableEq, Repr

namespace Pathspec

/-! ## Reading -/

/-- The characters that can be signs. -/
def signs : List Char := "!\"#%&',-/:;<=>@_`~".toList

/-- Reads the signs of one character in front of a pattern. `whole` is the text as a whole. -/
def readSigns (whole : Text) (s : Pathspec) : Text → Except Text Pathspec
  | [] => .ok s
  | ':' :: t => .ok { s with pattern := t }
  | c :: t =>
    if c = '^' || c = '!' then readSigns whole { s with excludes := true } t
    else if c = '/' then readSigns whole { s with fromTop := true } t
    else if signs.contains c then
      .error ("Unimplemented pathspec magic '".toList ++ c :: "' in '".toList ++ whole ++ ['\''])
    else .ok { s with pattern := c :: t }

/-- The text up to a comma or a closing parenthesis that no backslash stands in front of. -/
def untilComma : Text → Text
  | [] => []
  | '\\' :: c :: t => '\\' :: c :: untilComma t
  | c :: t => if c = ',' || c = ')' then [] else c :: untilComma t

/-- The text can be the name of an attribute. -/
def isAttributeName (t : Text) : Bool :=
  !t.isEmpty && t.head? != some '-' &&
    t.all fun c => c.isAlphanum || c = '-' || c = '.' || c = '_'

/-- Refuses what no attribute has for a value. -/
def checkValue : Text → Except Text Unit
  | [] => .ok ()
  | ['\\'] => .error "Escape character '\\' not allowed as last character in attr value".toList
  | '\\' :: c :: t => checkCharacter c *> checkValue t
  | c :: t => checkCharacter c *> checkValue t
where
  /-- Refuses a character that is in no value. -/
  checkCharacter (c : Char) : Except Text Unit :=
    if c.isAlphanum || c = ',' || c = '-' || c = '_' then .ok ()
    else .error ("cannot use '".toList ++ c :: "' for value matching".toList)

/-- Reads what is asked of one attribute. -/
def readDemand (t : Text) : Except Text AttributeDemand := do
  let (name, demand) ← match t with
    | '!' :: name => pure (name, AttributeDemand.isUnsaid)
    | '-' :: name => pure (name, AttributeDemand.isSaid)
    | t => do
      checkValue ((t.dropWhile (· != '=')).drop 1)
      pure (t.takeWhile (· != '='), AttributeDemand.isSaid)
  if isAttributeName name then return demand
  else .error ("invalid attribute name ".toList ++ name)

/-- Takes what is asked of attributes in. -/
def addAttributes (s : Pathspec) (t : Text) : Except Text Pathspec :=
  if s.attributes.isSome then .error "Only one 'attr:' specification is allowed.".toList
  else if t.isEmpty then .error "attr spec must not be empty".toList
  else do
    let demands ← ((Text.splitOn ' ' t).filter (!·.isEmpty)).mapM readDemand
    return { s with attributes := some demands }

/-- The number at the front of a text in a word of 32 bits, behind blanks and a sign; zero if nothing
stands there. -/
def readLength? (t : Text) : Option Int :=
  if t.isEmpty then some 0
  else
    let t := t.dropWhile (Text.inRanges Text.spaceRanges)
    let (isNegative, digits) := match t with
      | '-' :: r => (true, r)
      | '+' :: r => (false, r)
      | r => (false, r)
    (Text.digits? 10 digits).map fun n =>
      let n : Int := if isNegative then -(n : Int) else n
      (max (-0x8000000000000000) (min 0x7fffffffffffffff n)).bmod 0x100000000

/-- Takes one of the words in parentheses in. -/
def addWord (whole : Text) (s : Pathspec) (word : Text) : Except Text Pathspec :=
  if word.isEmpty then .ok s
  else if word = "top".toList then .ok { s with fromTop := true }
  else if word = "literal".toList then .ok { s with isLiteral := true }
  else if word = "glob".toList then .ok { s with bySegments := true }
  else if word = "icase".toList then .ok { s with ignoresCase := true }
  else if word = "exclude".toList then .ok { s with excludes := true }
  else if word = "attr".toList then .ok s
  else if "attr:".toList.isPrefixOf word then s.addAttributes (word.drop 5)
  else if "prefix:".toList.isPrefixOf word then
    match readLength? (word.drop 7) with
    | some (.ofNat n) => .ok { s with fixedFront := some n }
    | some _ => .ok { s with fixedFront := none }
    | none => .error "invalid parameter for pathspec magic 'prefix'".toList
  else .error ("Invalid pathspec magic '".toList ++ word ++ "' in '".toList ++ whole ++ ['\''])

/-- Reads the words in parentheses in front of a pattern. -/
def readWords (whole : Text) : (fuel : Nat) → Pathspec → Text → Except Text Pathspec
  | 0, s, _ => .ok s
  | fuel + 1, s, t =>
    match t with
    | [] => .error ("Missing ')' at the end of pathspec magic in '".toList ++ whole ++ ['\''])
    | ')' :: t => .ok { s with pattern := t }
    | t => do
      let word := untilComma t
      let s ← s.addWord whole word
      readWords whole fuel s (match t.drop word.length with
        | ',' :: t => t
        | t => t)

/-- A place to which no path leads, since what it runs through is not there: the first such place on the
way. The directories that lead to the working tree are all that is known to be there. -/
def missingPlace? (top place : Path) : Option Path :=
  ((List.range place.length).map fun n => place.take n).find? fun p => !p.isPrefixOf top

/-- The pattern from the top of the working tree, whose path is `top`. -/
def placed (top : Path) (whole : Text) (s : Pathspec) : Except Text Pathspec :=
  if s.fromTop || s.fixedFront.isSome then .ok s
  else
    let place := Path.resolve top s.pattern
    let missing? := if Path.isAbsolute s.pattern then missingPlace? top place else none
    match Path.below? top place, missing? with
    | some names, _ => .ok { s with pattern := Path.relativeText names }
    | none, none =>
      .error (whole ++ ": '".toList ++ s.pattern ++ "' is outside repository at '".toList ++
        top.text ++ ['\''])
    | none, some missing =>
      .error ("Invalid path '".toList ++ missing.text ++ "': No such file or directory".toList)

/-- Reads a pathspec in a working tree. -/
def read (top : Path) (whole : Text) : Except Text Pathspec := do
  let s ← match whole with
    | ':' :: '(' :: t => readWords whole (t.length + 1) { pattern := [] } t
    | ':' :: t => readSigns whole { pattern := [] } t
    | t => .ok { pattern := t }
  if s.isLiteral && s.bySegments then
    .error (whole ++ ": 'literal' and 'glob' are incompatible".toList)
  else
    let s ← s.placed top whole
    if (Utf8.encode s.pattern).length < s.fixedFront.getD 0 then
      .error "error initializing pathspec_item".toList
    else return s

/-! ## Picking -/

/-- How a pathspec picks a file: as one below it, as one that its wildcards stand for, or exactly. -/
inductive Picking where
  | below
  | wildcard
  | exact
  deriving DecidableEq, Repr

/-- The character has a meaning in a pattern. -/
def isWild (c : Char) : Bool := c = '*' || c = '?' || c = '[' || c = '\\'

/-- The characters as they are compared. -/
def compared (s : Pathspec) (t : Text) : Text := if s.ignoresCase then t.map Char.toLower else t

/-- No attribute of any file is said, so only demands that it be so are met. -/
def attributesFit (s : Pathspec) : Bool := (s.attributes.getD []).all (· = .isUnsaid)

/-- The wildcards of the pathspec and what follows them, where the pattern has any. What stands in front
of them is to be found in a path as it stands. -/
def wildcards (s : Pathspec) : Text × Option Text :=
  let pattern := Text.byteChars s.pattern
  let plain := (pattern.takeWhile (!isWild ·)).length
  let front := if s.isLiteral then pattern.length else max plain (s.fixedFront.getD 0)
  (pattern.take front, if front < pattern.length then some (pattern.drop front) else none)

/-- How the pathspec picks the file at a path. -/
def picks (s : Pathspec) (path : Text) : Option Picking :=
  let pattern := Text.byteChars s.pattern
  let file := Text.byteChars path
  let (front, wild) := s.wildcards
  let rules : WildcardRules := { bySegments := s.bySegments, ignoresCase := s.ignoresCase }
  let fixed := s.fixedFront.getD 0
  if !s.attributesFit then none
  else if s.ignoresCase && pattern.take fixed != file.take fixed then none
  else if pattern.isEmpty then some .below
  else if s.compared pattern = s.compared file then some .exact
  else if (s.compared pattern).isPrefixOf (s.compared file) &&
      (file[pattern.length]? = some '/' || pattern.getLast? = some '/') then some .below
  else if (s.compared front).isPrefixOf (s.compared file) &&
      (wild.bind (Wildcards.read rules)).any (·.isMatch (file.drop front.length)) then some .wildcard
  else none

/-- The files that a pathspec picks, in their order, and the closest way in which one was picked. Once a
file is picked exactly no other is looked at. -/
def pick (s : Pathspec) : List Text → List Text × Option Picking
  | [] => ([], none)
  | p :: ps =>
    match s.picks p with
    | none => s.pick ps
    | some .exact => ([p], some .exact)
    | some .wildcard =>
      let (files, how) := s.pick ps
      (p :: files, some (if how = some .exact then .exact else .wildcard))
    | some .below =>
      let (files, how) := s.pick ps
      (p :: files, some (how.getD .below))

end Pathspec

/-- What is left of an index when the files that a path picks, read as a pathspec, are taken out. No
directory is taken out as a whole. -/
def Snapshot.removal (s : Snapshot) (top : Path) (path : Text) : Except Text Snapshot := do
  let spec ← Pathspec.read top path
  let files := (s.map (·.1)).mergeSort Text.isInOrder
  let whole (t : Text) : Except Text Snapshot :=
    .error ("not removing '".toList ++ t ++ "' recursively without -r".toList)
  if spec.excludes then whole ['.']
  else match spec.pick files with
    | (_, none) => .error ("pathspec '".toList ++ path ++ "' did not match any files".toList)
    | (_, some .below) => whole path
    | (picked, some _) => .ok (s.filter fun (p, _) => !picked.contains p)

end Emend.Git
