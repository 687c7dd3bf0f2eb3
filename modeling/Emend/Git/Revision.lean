import Emend.Git.Repository
import Emend.Text.Expression
import Emend.Text.Integer

/-!
# Revisions

A revision is a text that names a commit of a repository. It begins with a name: a reference, `@` for
`HEAD`, or the first digits of an identifier, in front of which a description may stand. Steps follow:
`~n` goes to the n-th ancestor along first parents, `^n` to the n-th parent, `^{kind}` asks for an object
of that kind, `^{/words}` for the nearest ancestor with a message that an expression is found in, `@{n}`
for where a reference was `n` moves ago or at a time, and `:path` for what stands at a path. A revision
that begins with a colon names what the index has at a path, or with `:/words` searches from the last
commit.

Only commits count in the end: a revision that leads to a tree or a file is refused.
-/

namespace Emend.Git

/-- Why a text is no revision. -/
inductive RevisionError where
  | unknown (reason : Text)
  /-- A tree has nothing of that name. -/
  | noEntry (name : Text)
  /-- Names were to lead on from a tree that has no place. -/
  | noPlace
  /-- A reference did not move as often as that. -/
  | noEarlierPlace (moves : Int)
  /-- No branch was left as often as that. -/
  | noEarlierBranch (times : Int)
  /-- An earlier place is named neither by a number nor by a time. -/
  | unnumberedPlace
  /-- The file of a reference is blank. -/
  | blankReference
  deriving DecidableEq, Repr

namespace RevisionError

/-- The error in words. -/
def message : RevisionError → Text
  | unknown reason => reason
  | noEntry name =>
    Text.quoted ("Blob or Tree named ".toList ++ Text.quoted name ++ " not found".toList)
  | noPlace =>
    ("Attribute 'path' unset: path and mode attributes must have been set during Tree object " ++
      "creation").toList
  | noEarlierPlace moves => "Invalid revlog index: ".toList ++ Text.ofInt moves
  | noEarlierBranch times => "Invalid previous checkout selector: ".toList ++ Text.ofInt times
  | unnumberedPlace => "Support for additional @\x7b...\x7d modes not implemented".toList
  | blankReference => []

/-- No object is known by a name. -/
def notResolved (name : Text) : RevisionError :=
  unknown ("Ref '".toList ++ name ++ "' did not resolve to an object".toList)

/-- A step is not understood. -/
def invalidToken (c : Char) : RevisionError := unknown ("Invalid token: ".toList ++ Text.quoted [c])

/-- A commit has not as many ancestors or parents as a step asks for. -/
def tooFewParents (spec : Text) (step : Char) (n : Nat) : RevisionError :=
  notResolved ("Invalid revision spec '".toList ++ spec ++
    "' - not enough parent commits to reach '".toList ++ step :: Text.ofNat n ++ ['\''])

/-- No message has the words. -/
def notFound (words : Text) : RevisionError :=
  notResolved ("No commit found matching message pattern ".toList ++ Text.quoted words)

/-- A reference leads to no identifier. -/
def ofFault : ReferenceFault → RevisionError
  | .missing name =>
    unknown ("Reference at ".toList ++ Text.quoted name ++ " does not exist".toList)
  | .unreadable name =>
    unknown ("Failed to parse reference information from ".toList ++ Text.quoted name)
  | .blank => blankReference

end RevisionError

open RevisionError

/-! ## Parts of a revision -/

/-- The name at the front of a revision, and the steps behind it. -/
def splitName : Text → Text × Text
  | [] => ([], [])
  | '@' :: '{' :: t => ([], '@' :: '{' :: t)
  | c :: t =>
    if c = '^' || c = '~' || c = ':' then ([], c :: t)
    else
      let (name, rest) := splitName t
      (c :: name, rest)

/-- What stands in front of the closing brace, `depth` braces being open inside, and what follows it. A
backslash takes its meaning from the character behind it. -/
def toBrace? : (depth : Nat) → Text → Option (Text × Text)
  | _, [] => none
  | depth, '\\' :: c :: t => (toBrace? depth t).map fun (inner, rest) => ('\\' :: c :: inner, rest)
  | 0, '}' :: t => some ([], t)
  | depth, c :: t =>
    let depth := if c = '{' then depth + 1 else if c = '}' then depth - 1 else depth
    (toBrace? depth t).map fun (inner, rest) => (c :: inner, rest)

/-- What stands in front of the closing brace, and what follows it. -/
def splitBrace (spec t : Text) : Except RevisionError (Text × Text) :=
  match toBrace? 0 t with
  | some r => .ok r
  | none => .error (.unknown ("Missing closing brace to define type in ".toList ++ spec))

/-- The digits, if the text can be the beginning of an identifier. A line feed may stand behind it. -/
def idDigits? (t : Text) : Option Text :=
  let digits := if t.getLast? = some '\n' then t.dropLast else t
  if 4 ≤ digits.length ∧ digits.length ≤ 40 ∧ digits.all fun c => (Text.hexDigit? c).isSome then
    some digits
  else none

/-- The digits behind a description, a hyphen and the letter `g`. -/
def describedDigits? (t : Text) : Option Text :=
  let digits := (t.reverse.takeWhile fun c => (Text.hexDigit? c).isSome).reverse
  match (t.take (t.length - digits.length)).reverse with
  | 'g' :: '-' :: _ :: _ => idDigits? digits
  | _ => none

/-- The commit that an object is. -/
def Object.toCommit : Object → Except RevisionError (ObjectId × Commit)
  | .commit id c => .ok (id, c)
  | o => .error (.unknown ("Cannot convert object ".toList ++ o.shown ++ " to type commit".toList))

/-- The tree that an object is or records. -/
def Object.toTree : Object → Except RevisionError Object
  | .tree s hasPlace => .ok (.tree s hasPlace)
  | o => do return .tree (← o.toCommit).2.tree true

/-- What an object has at a path. -/
def Object.at? (o : Object) (path : Text) : Except RevisionError Object := do
  match ← o.toTree with
  | .tree s hasPlace =>
    let isKnown := (s.entry? (path.takeWhile (· != '/'))).isSome
    if path.isEmpty then return .tree s hasPlace
    else if isKnown && !hasPlace then .error .noPlace
    else (s.at? path).mapError .noEntry
  | o => return o

namespace Repository

/-! ## Names -/

/-- The object of an identifier. -/
def objectOf (r : Repository) (id : ObjectId) : Except RevisionError Object :=
  let id := id.map Char.toLower
  match r.objects.lookup id with
  | some o => .ok o
  | none =>
    .error (.unknown ("SHA b'".toList ++ id ++ "' could not be resolved, git returned: b'".toList ++
      id ++ " missing'".toList))

/-- What `HEAD` leads to. -/
def tip (r : Repository) : Except RevisionError Object := do
  r.objectOf (← (r.dereference headName).mapError .ofFault)

/-- What may stand in front of a name and behind it in the name of a reference. -/
def referenceForms : List (String × String) :=
  [("", ""), ("refs/", ""), ("refs/tags/", ""), (String.ofList branchFront, ""), ("refs/remotes/", ""),
   ("refs/remotes/", "/HEAD")]

/-- The reference that is meant by a name, and where it leads: the first of its forms that leads
anywhere. -/
def reference? (r : Repository) (name : Text) : Except RevisionError (Option (Text × ObjectId)) :=
  go (referenceForms.map fun (front, behind) => front.toList ++ name ++ behind.toList)
where
  /-- The first of the names that leads anywhere. -/
  go : List Text → Except RevisionError (Option (Text × ObjectId))
    | [] => .ok none
    | n :: ns => match r.dereference n with
      | .ok id => .ok (some (n, id))
      | .error .blank => .error .blankReference
      | .error _ => go ns

/-- The object of a name. -/
def named (r : Repository) (name : Text) : Except RevisionError Object :=
  if name = ['@'] then r.tip
  else match (idDigits? name).bind r.withDigits? with
    | some o => .ok o
    | none =>
      if Reference.isId name then r.objectOf name
      else match (describedDigits? name).bind r.withDigits? with
        | some o => .ok o
        | none => do match ← r.reference? name with
          | some (_, id) => r.objectOf id
          | none => .error (notResolved name)

/-! ## Earlier places -/

/-- Numbers from here on are times, not numbers of moves. -/
def timeBound : Int := 100000000

/-- The places of a reference, the last one first. Only `HEAD` and its branch keep a log. -/
def places (r : Repository) (reference : Text) : List (ObjectId × Commit) :=
  if reference = headName || reference = r.target then r.commits else []

/-- The place that a reference had so many moves ago, or at that time. All moves are logged at one time. -/
def placeAt (r : Repository) (reference : Text) (n : Int) : Except RevisionError Object :=
  let places := r.places reference
  let found := if n < timeBound then places[n.toNat]?
    else if n < r.logTime then places.getLast?
    else places.head?
  match found with
  | some (id, c) => .ok (.commit id c)
  | none => .error (.noEarlierPlace n)

/-- The place that `inner` asks for, which stands between braces behind an at sign. `isFirst` tells that
no name and no step stands in front. -/
def earlier (r : Repository) (reference : Text) (isFirst : Bool) (inner : Text) :
    Except RevisionError Object :=
  if ["u", "upstream", "push"].any (·.toList = inner.map Char.toLower) then
    .error (notResolved (r.branch ++ "@\x7bupstream\x7d".toList))
  else
    let number := if inner.head? = some '+' then inner.tail else inner
    match Text.int? number with
    | none => .error .unnumberedPlace
    | some n =>
      if 0 ≤ n && !(number.contains '-') then r.placeAt reference n
      else if !isFirst then
        .error (.unknown "Previous checkout selectors do not take an explicit ref".toList)
      else if n = 0 then .error (.unknown "Negative zero is invalid in reflog selector".toList)
      else .error (.noEarlierBranch n)

/-! ## Steps -/

/-- The ancestor that many steps back along first parents. -/
def ancestor? (r : Repository) : Nat → ObjectId → Option ObjectId
  | 0, id => some id
  | n + 1, id => (r.parents id).head?.bind (r.ancestor? n)

/-- The parent of that number, counted from 1; 0 is the commit itself. -/
def parent? (r : Repository) (n : Nat) (id : ObjectId) : Option ObjectId :=
  if n = 0 then some id else (r.parents id)[n - 1]?

/-- A commit and its ancestors along first parents, `count` of them at most. -/
def lineage (r : Repository) : (count : Nat) → ObjectId → List (ObjectId × Commit)
  | 0, _ => []
  | count + 1, id =>
    match r.commits.lookup id with
    | none => []
    | some c => (id, c) :: (match c.parents with
        | [] => []
        | p :: _ => r.lineage count p)

/-- What a message has to be like for words that are searched for: the expression that they spell is
found in it, or is not. An exclamation mark in front is a sign, which another one takes away. -/
def messageTest? (words : Text) : Option (Text → Bool) :=
  let (isNegated, expression) := match words with
    | '!' :: '-' :: e => (true, some e)
    | '!' :: '!' :: e => (false, some ('!' :: e))
    | '!' :: _ => (false, none)
    | e => (false, some e)
  (expression.bind Expression.read).map fun e message =>
    e.isFound (message.takeWhile (· != '\x00')) != isNegated

/-- The nearest of a commit and its ancestors with a message that the words are found in. -/
def search (r : Repository) (id : ObjectId) (words : Text) : Except RevisionError Object :=
  if words.contains '\x00' then .error (.unknown "embedded null byte".toList)
  else
    let found := (messageTest? words).bind fun test =>
      (r.lineage r.commits.length id).find? fun (_, c) => test c.message
    match found with
    | some (id, c) => .ok (.commit id c)
    | none => .error (notFound words)

/-- The object that `^{inner}` asks for. -/
def peel (r : Repository) (spec : Text) (o : Object) (inner : Text) : Except RevisionError Object :=
  match inner with
  | [] => .ok o
  | '/' :: words => do
    let (id, c) ← o.toCommit
    if words.isEmpty then return .commit id c else r.search id words
  | _ =>
    if inner = "object".toList then .ok o
    else if inner = "commit".toList then do
      let (id, c) ← o.toCommit
      return .commit id c
    else if inner = "tree".toList then o.toTree
    else if ["blob", "tag"].any (·.toList = inner) then
      if o.kind.toList = inner then .ok o
      else .error (.unknown ("Could not accommodate requested object type ".toList ++
        Text.quoted inner ++ ", got ".toList ++ o.kind.toList))
    else .error (.unknown ("Invalid output type: ".toList ++ inner ++ " ( in ".toList ++ spec ++
        " )".toList))

/-- Follows the steps behind a name from an object. `spec` is the text as a whole. -/
def followSteps (r : Repository) (spec : Text) : (fuel : Nat) → Object → Text →
    Except RevisionError Object
  | 0, o, _ => .ok o
  | _ + 1, o, [] => .ok o
  | fuel + 1, o, '^' :: '{' :: t => do
    let (inner, rest) ← splitBrace spec t
    let o ← r.peel spec o inner
    r.followSteps spec fuel o rest
  | fuel + 1, _, '@' :: '{' :: t => do
    let (inner, rest) ← splitBrace spec t
    let o ← r.earlier headName false inner
    r.followSteps spec fuel o rest
  | _ + 1, _, '@' :: _ =>
    .error (.unknown ("Invalid @ token in revision specifier: ".toList ++ spec))
  | _ + 1, o, ':' :: path => o.at? path
  | fuel + 1, o, step :: t =>
    if step = '~' || step = '^' then do
      let digits := t.takeWhile Char.isDigit
      let n := (Text.digits? 10 digits).getD 1
      let (id, _) ← o.toCommit
      match if step = '~' then r.ancestor? n id else r.parent? n id with
      | none => .error (tooFewParents spec step n)
      | some id =>
        let o ← r.objectOf id
        r.followSteps spec fuel o (t.drop digits.length)
    else .error (invalidToken step)

/-- What the index has at a path; a stage and a colon may stand in front of it. Only the first stage, 0,
has anything. -/
def listed (r : Repository) (path : Text) : Except RevisionError Object :=
  let (stage, path) := match path with
    | c :: ':' :: p => if '0' ≤ c ∧ c ≤ '3' then (c, p) else ('0', path)
    | _ => ('0', path)
  match if stage = '0' then r.index.lookup path else none with
  | some id => .ok (.blob id)
  | none => .error (notResolved ("Path ".toList ++ Text.quoted path ++
      " did not exist in the index at stage ".toList ++ [stage]))

/-- The last commit with a message that the words are found in. Two points between what names a commit
by itself stand for a range, in which nothing is searched for. -/
def searchAll (r : Repository) (words : Text) : Except RevisionError Object :=
  match r.head? with
  | none => .error (notFound words)
  | some (id, _) =>
    let front := untilPoints words
    let behind := words.drop (front.length + 2)
    let behind := if behind.head? = some '.' then behind.tail else behind
    let isRange := front.length < words.length && !front.isEmpty &&
      (r.search id front).isOk && (behind.isEmpty || (r.named behind).isOk)
    if words.isEmpty || isRange then .error (notFound words) else r.search id words
where
  /-- What stands in front of the first two points side by side. -/
  untilPoints : Text → Text
    | [] => []
    | '.' :: '.' :: _ => []
    | c :: t => c :: untilPoints t

/-- The object that a text names. -/
def find (r : Repository) (spec : Text) : Except RevisionError Object :=
  match spec with
  | [] => .error (notResolved spec)
  | ':' :: '/' :: words => r.searchAll words
  | ':' :: path => r.listed path
  | _ =>
    let (name, steps) := splitName spec
    match name, steps with
    | [], '@' :: '{' :: t => do
      let _ ← r.tip
      let (inner, rest) ← splitBrace spec t
      let o ← r.earlier r.target true inner
      r.followSteps spec (spec.length + 1) o rest
    | [], _ =>
      .error (.unknown ("Revision specifier must start with an object name: ".toList ++ spec))
    | name, '@' :: '{' :: t => do
      let reference ← if name = ['@'] then pure headName
        else match ← r.reference? name with
          | some (reference, _) => pure reference
          | none => .error (notResolved name)
      let (inner, rest) ← splitBrace spec t
      let o ← r.earlier reference false inner
      r.followSteps spec (spec.length + 1) o rest
    | name, steps => do
      let o ← r.named name
      r.followSteps spec (spec.length + 1) o steps

/-- The commit that a text names, or what is wrong with the text. -/
def revision (r : Repository) (spec : Text) : Except RevisionError Commit := do
  let (_, c) ← (← r.find spec).toCommit
  return c

end Repository

end Emend.Git
