import Emend.Text.Classes

/-!
# Wildcards

A path pattern in which `?` stands for one character, `*` for any number of them, and a class in square
brackets for one of its members. `Wildcards.read` reads a pattern and refuses those with a malformed
class; `Wildcards.isMatch` decides whether a whole path is as a pattern says. Both take bytes, each shown
as a character.

A pattern may be told to keep to segments. Then no wildcard stands for a slash, but two stars that make
up a segment stand for any number of segments.
-/

namespace Emend

/-- What a class in square brackets lists. -/
inductive ClassItem where
  | single (c : Char)
  | range (first last : Char)
  | named (ranges : List Text.CharRange)
  deriving DecidableEq, Repr

/-- A part of a pattern. -/
inductive Wildcard where
  | single (c : Char)
  | anyOne
  | oneOf (isNegated : Bool) (items : List ClassItem)
  /-- Any number of characters, slashes among them or not. -/
  | anyNumber (crossesSlashes : Bool)
  /-- Any number of segments, each with the slash behind it. -/
  | anySegments
  /-- No character is as this says. -/
  | nothing
  deriving DecidableEq, Repr

/-- How a pattern is read. -/
structure WildcardRules where
  /-- The pattern keeps to segments. -/
  bySegments : Bool := false
  /-- Upper case in a path is taken for lower case, and in a pattern too where it stands for itself. -/
  ignoresCase : Bool := false
  deriving DecidableEq, Repr

/-- A pattern. -/
structure Wildcards where
  rules : WildcardRules
  parts : List Wildcard
  deriving DecidableEq, Repr

namespace Wildcards

/-! ## Reading -/

/-- The blanks of this language: vertical tab and form feed are not among them. -/
def spaceRanges : List Text.CharRange := [('\t', '\n'), Text.just '\r', Text.just ' ']

/-- The class of that name. Where case does not count, lower case is upper case too. -/
def namedClass? (rules : WildcardRules) (name : Text) : Option (List Text.CharRange) :=
  if name = "space".toList then some spaceRanges
  else (Text.namedClass? name).map fun rs =>
    if rules.ignoresCase && name = "upper".toList then Text.lowerRange :: rs else rs

/-- A character, which a backslash may stand in front of. -/
def readEscaped : Text → Option (Char × Text)
  | [] => none
  | ['\\'] => none
  | '\\' :: c :: t => some (c, t)
  | c :: t => some (c, t)

/-- Reads what a class lists, up to its closing bracket. `last` is the character in front, which a range
may begin with; at the front of a class a closing bracket is an item. `fuel` bounds the number of
characters. -/
def readItems (rules : WildcardRules) : (fuel : Nat) → (isFirst : Bool) → (last : Option Char) → Text →
    Option (List ClassItem × Text)
  | 0, _, _, _ => none
  | fuel + 1, isFirst, last, t =>
    let more (item : ClassItem) (last : Option Char) (t : Text) : Option (List ClassItem × Text) :=
      (readItems rules fuel false last t).map fun (items, t) => (item :: items, t)
    match t with
    | [] => none
    | c :: r =>
      if c = ']' && !isFirst then some ([], r)
      else if c = '-' && last.isSome && !r.isEmpty && r.head? != some ']' then do
        let (stop, r) ← readEscaped r
        more (.range (last.getD c) stop) none r
      else if c = '[' && r.head? = some ':' then
        let inner := r.tail.takeWhile (· != ']')
        match r.tail.drop inner.length with
        | [] => none
        | _ :: behind =>
          if inner.getLast? = some ':' then do
            more (.named (← namedClass? rules inner.dropLast)) none behind
          else more (.single c) (some c) r
      else do
        let (c, r) ← readEscaped t
        more (.single c) (some c) r

/-- Reads a class behind its opening bracket. -/
def readClass (rules : WildcardRules) (t : Text) : Option (Wildcard × Text) :=
  let (isNegated, t) := match t with
    | '!' :: r => (true, r)
    | '^' :: r => (true, r)
    | r => (false, r)
  (readItems rules (t.length + 1) true none t).map fun (items, t) => (.oneOf isNegated items, t)

/-- Reads the parts of a pattern. `startsSegment` tells that a segment begins here. `fuel` bounds the
number of characters. -/
def readParts (rules : WildcardRules) : (fuel : Nat) → (startsSegment : Bool) → Text →
    Option (List Wildcard)
  | 0, _, _ => none
  | fuel + 1, startsSegment, t =>
    let more (w : Wildcard) (startsSegment : Bool) (t : Text) : Option (List Wildcard) :=
      (readParts rules fuel startsSegment t).map (w :: ·)
    match t with
    | [] => some []
    | ['\\'] => some [.nothing]
    | '\\' :: c :: t => more (.single c) (c = '/') t
    | '?' :: t => more .anyOne false t
    | '[' :: t => do
      let (w, t) ← readClass rules t
      more w false t
    | '*' :: t =>
      let stars := t.takeWhile (· = '*')
      let rest := t.drop stars.length
      let isSegment := !stars.isEmpty && startsSegment &&
        (rest.isEmpty || rest.head? = some '/' || rest.take 2 = ['\\', '/'])
      match rest with
      | '/' :: r => if rules.bySegments && isSegment then more .anySegments true r
          else more (.anyNumber !rules.bySegments) false rest
      | _ => more (.anyNumber (!rules.bySegments || isSegment)) false rest
    | c :: t => more (.single (if rules.ignoresCase then c.toLower else c)) (c = '/') t

/-- Reads a pattern. -/
def read (rules : WildcardRules) (t : Text) : Option Wildcards :=
  (readParts rules (t.length + 1) true t).map (⟨rules, ·⟩)

/-! ## Matching -/

/-- The item of a class is the character, or its upper case where case does not count. -/
def isItem (rules : WildcardRules) (c : Char) : ClassItem → Bool
  | .single d => c = d
  | .range first last =>
    Text.inRanges [(first, last)] c || (rules.ignoresCase && Text.inRanges [(first, last)] c.toUpper)
  | .named ranges => Text.inRanges ranges c

/-- The part stands for the character alone. -/
def admits (rules : WildcardRules) (c : Char) : Wildcard → Bool
  | .single d => c = d
  | .anyOne => !(rules.bySegments && c = '/')
  | .oneOf isNegated items =>
    !(rules.bySegments && c = '/') && (items.any (isItem rules c) != isNegated)
  | .anyNumber _ | .anySegments | .nothing => false

/-- Some part at the front, of admitted characters only, can be left out so that the rest is as asked. -/
def skips (admits : Char → Bool) (asked : Text → Bool) : Text → Bool
  | [] => asked []
  | c :: t => asked (c :: t) || (admits c && skips admits asked t)

/-- What stands behind any of the slashes is as asked. -/
def behindSlash (asked : Text → Bool) : Text → Bool
  | [] => false
  | c :: t => (c = '/' && asked t) || behindSlash asked t

/-- The whole text is as the parts say. -/
def isMatchOf (rules : WildcardRules) : List Wildcard → Text → Bool
  | [], t => t.isEmpty
  | .anyNumber crossesSlashes :: ws, t =>
    skips (fun c => crossesSlashes || c != '/') (isMatchOf rules ws) t
  | .anySegments :: ws, t => isMatchOf rules ws t || behindSlash (isMatchOf rules ws) t
  | w :: ws, t => match t with
    | [] => false
    | c :: t => admits rules c w && isMatchOf rules ws t

/-- The whole path is as the pattern says. -/
def isMatch (p : Wildcards) (path : Text) : Bool :=
  isMatchOf p.rules p.parts (if p.rules.ignoresCase then path.map Char.toLower else path)

example : (read { bySegments := true } "**/b".toList).map (isMatch · "a/x/b".toList) = some true := by
  decide +kernel

example : (read {} "[[:digit:]x-]?".toList).map (isMatch · "-/".toList) = some true := by
  decide

end Wildcards

end Emend
