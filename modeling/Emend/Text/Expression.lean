import Emend.Text.Classes
import Emend.Text.Digits

/-!
# Regular expressions

Regular expressions of the extended kind, searched for in the bytes of a text. `Expression.read` reads
one and refuses those that are not well formed; `Expression.isFound` decides whether some part of a text
is as an expression says.

The meaning of an expression is a step from places in the text to places in the text: those that can be
reached by going over a part that is as the expression says. So alternatives are unions of places, one
thing behind another is one step behind another, and a repetition goes on until no new place is reached.

A place remembers the parts that groups went over, since an expression may ask for the same part again.
The signs for the two ends of a text take an inner line feed for an end too, but only one that the part
goes over.
-/

namespace Emend

/-- A condition on a place in a text. -/
inductive Boundary where
  | textStart
  | textEnd
  /-- The start of the text, or behind a line feed that was gone over. -/
  | lineStart
  /-- The end of the text, or in front of a line feed that is gone over next. -/
  | lineEnd
  | wordStart
  | wordEnd
  /-- One of the two ends of a word. -/
  | wordEdge
  /-- Neither end of a word. -/
  | noWordEdge
  deriving DecidableEq, Repr

/-- A regular expression. -/
inductive Expression where
  | empty
  /-- One character of the ranges, or one outside them. -/
  | oneOf (isNegated : Bool) (ranges : List Text.CharRange)
  | boundary (b : Boundary)
  | followedBy (e f : Expression)
  | either (e f : Expression)
  /-- As often as the bounds say; there may be no upper one. -/
  | times (low : Nat) (high : Option Nat) (e : Expression)
  /-- The group of that number. -/
  | group (n : Nat) (e : Expression)
  /-- The part that the group of that number went over, once more. -/
  | again (n : Nat)
  deriving Repr

namespace Expression

/-! ## Reading -/

/-- The expression of one character. -/
def char (c : Char) : Expression := oneOf false [Text.just c]

/-- What stands in a class: one character, which a range can begin or end with, or a class with a name. -/
inductive Member where
  | single (c : Char)
  | named (ranges : List Text.CharRange)
  deriving DecidableEq, Repr

/-- The most characters of a name in a class. -/
def maxNameLength : Nat := 31

/-- Reads a name up to its closing delimiter and bracket. -/
def readName (delimiter : Char) : Text → Option (Text × Text)
  | [] => none
  | [_] => none
  | c :: d :: t =>
    if c = delimiter && d = ']' then some ([], t)
    else (readName delimiter (d :: t)).map fun (name, rest) => (c :: name, rest)

/-- Reads a member of a class. A hyphen is one only at the front and at the end of a class, and at the
end of a range. -/
def readMember (takesHyphen : Bool) : Text → Option (Member × Text)
  | [] => none
  | '[' :: d :: t =>
    if d = ':' || d = '.' || d = '=' then do
      let (name, rest) ← readName d t
      if maxNameLength < name.length then none
      else if d = ':' then (Text.namedClass? name).map fun rs => (.named rs, rest)
      else match name with
        | [c] => some (if d = '.' then .single c else .named [Text.just c], rest)
        | _ => none
    else some (.single '[', d :: t)
  | c :: t =>
    if c = '-' && !takesHyphen && t.head? != some ']' then none else some (.single c, t)

/-- Reads the members of a class, up to its closing bracket. `fuel` bounds the number of characters. -/
def readMembers : (fuel : Nat) → (isFirst : Bool) → Text → Option (List Text.CharRange × Text)
  | 0, _, _ => none
  | fuel + 1, isFirst, t =>
    if !isFirst && t.head? = some ']' then some ([], t.tail)
    else do
      let (first, rest) ← readMember isFirst t
      let (ranges, rest) ← match first, rest with
        | .named rs, _ => some (rs, rest)
        | .single _, ['-'] => none
        | .single a, '-' :: c :: r =>
          if c = ']' then some ([Text.just a], rest)
          else match ← readMember true (c :: r) with
            | (.named _, _) => none
            | (.single b, r) => if a ≤ b then some ([(a, b)], r) else none
        | .single a, _ => some ([Text.just a], rest)
      let (others, rest) ← readMembers fuel false rest
      return (ranges ++ others, rest)

/-- Reads a class behind its opening bracket. -/
def readClass (t : Text) : Option (Expression × Text) :=
  let (isNegated, t) := match t with
    | '^' :: r => (true, r)
    | r => (false, r)
  (readMembers (t.length + 1) true t).map fun (rs, t) => (oneOf isNegated rs, t)

/-- The highest number of repetitions. -/
def maxCount : Nat := 32767

/-- Reads a count behind its opening brace: the bounds. -/
def readCount (t : Text) : Option ((Nat × Option Nat) × Text) := do
  let low := t.takeWhile Char.isDigit
  let number (ds : Text) : Option Nat :=
    (Text.digits? 10 ds).bind fun n => if n ≤ maxCount then some n else none
  match low, t.drop low.length with
  | [], ',' :: t => upper number 0 t
  | _, '}' :: t => (number low).map fun n => ((n, some n), t)
  | _, ',' :: t => (number low).bind (upper number · t)
  | _, _ => none
where
  /-- Reads the upper bound behind the comma. -/
  upper (number : Text → Option Nat) (low : Nat) (t : Text) : Option ((Nat × Option Nat) × Text) :=
    let high := t.takeWhile Char.isDigit
    match t.drop high.length with
    | '}' :: t =>
      if high.isEmpty then some ((low, none), t)
      else (number high).bind fun n => if low ≤ n then some ((low, some n), t) else none
    | _ => none

/-- Reads what says how often an expression occurs, as many times as that is said. -/
def readTimes : (fuel : Nat) → Expression → Text → Option (Expression × Text)
  | 0, e, t => some (e, t)
  | fuel + 1, e, t =>
    match t with
    | '*' :: t => readTimes fuel (times 0 none e) t
    | '+' :: t => readTimes fuel (times 1 none e) t
    | '?' :: t => readTimes fuel (times 0 (some 1) e) t
    | '{' :: t => do
      let ((low, high), t) ← readCount t
      readTimes fuel (times low high e) t
    | t => some (e, t)

/-- What a backslash makes of the character behind it. -/
def escaped (c : Char) : Expression :=
  match c with
  | 'w' => oneOf false Text.wordRanges
  | 'W' => oneOf true Text.wordRanges
  | 's' => oneOf false Text.spaceRanges
  | 'S' => oneOf true Text.spaceRanges
  | '<' => boundary .wordStart
  | '>' => boundary .wordEnd
  | 'b' => boundary .wordEdge
  | 'B' => boundary .noWordEdge
  | '\x60' => boundary .textStart
  | '\'' => boundary .textEnd
  | c => char c

/-- The expression is a condition on a place, which cannot be repeated. -/
def isBoundary : Expression → Bool
  | boundary _ => true
  | _ => false

/-- How often an expression occurs is read if it can be repeated. -/
def counted (e : Expression) (t : Text) : Option (Expression × Text) :=
  if isBoundary e then some (e, t) else readTimes (t.length + 1) e t

/-- The groups of what has been read of an expression: how many were opened, and those that are closed
where the reading stands. -/
structure Groups where
  opened : Nat := 0
  closed : List Nat := []

mutual

/-- Reads branches with bars between them, up to the end of the text or of the innermost of `depth`
groups. No branch knows the groups of another. -/
def readBranches : (fuel : Nat) → (depth : Nat) → Groups → Text → Option (Expression × Groups × Text)
  | 0, _, _, _ => none
  | fuel + 1, depth, groups, t => do
    match ← readBranch fuel depth groups t with
    | (e, first, '|' :: t) =>
      let (f, others, t) ← readBranches fuel depth { first with closed := groups.closed } t
      return (either e f, { others with closed := first.closed ++ others.closed }, t)
    | r => return r

/-- Reads one branch, part by part. -/
def readBranch : (fuel : Nat) → (depth : Nat) → Groups → Text → Option (Expression × Groups × Text)
  | 0, _, _, _ => none
  | fuel + 1, depth, groups, t =>
    if t.isEmpty || t.head? = some '|' || (t.head? = some ')' && depth ≠ 0) then
      some (empty, groups, t)
    else do
      let (e, groups, t) ← readPart fuel depth groups t
      let (f, groups, t) ← readBranch fuel depth groups t
      return (followedBy e f, groups, t)

/-- Reads a part of a branch with what says how often it occurs. -/
def readPart : (fuel : Nat) → (depth : Nat) → Groups → Text → Option (Expression × Groups × Text)
  | 0, _, _, _ => none
  | fuel + 1, depth, groups, t => do
    let (e, groups, t) ← match t with
      | [] => none
      | '(' :: t =>
        let number := groups.opened + 1
        match ← readBranches fuel (depth + 1) { groups with opened := number } t with
        | (e, inner, ')' :: t) =>
          some (group number e, { inner with closed := number :: inner.closed }, t)
        | _ => none
      | '[' :: t => (readClass t).map fun (e, t) => (e, groups, t)
      | ['\\'] => none
      | '\\' :: c :: t =>
        match Text.digits? 10 [c] with
        | some (n + 1) =>
          if groups.closed.contains (n + 1) then some (again (n + 1), groups, t) else none
        | _ => some (escaped c, groups, t)
      | '^' :: t => some (boundary .lineStart, groups, t)
      | '$' :: t => some (boundary .lineEnd, groups, t)
      | '.' :: t => some (oneOf true [Text.just '\x00'], groups, t)
      | c :: t => if c = '*' || c = '+' || c = '?' || c = '{' then none else some (char c, groups, t)
    let (e, t) ← counted e t
    return (e, groups, t)

end

/-- Reads an expression. -/
def read (t : Text) : Option Expression :=
  let cs := Text.byteChars t
  match readBranches (4 * cs.length + 4) 0 {} cs with
  | some (e, _, []) => some e
  | _ => none

/-! ## Searching -/

/-- A place in a text that was reached from some other: the number of characters in front of it, and the
parts that groups went over by their numbers, with the places where each begins and ends. -/
structure Spot where
  place : Nat
  /-- Some character has been gone over on the way. -/
  hasMoved : Bool := false
  /-- The next character has to be a line feed. -/
  owesBreak : Bool := false
  parts : List (Nat × Nat × Nat) := []
  deriving DecidableEq, Repr

/-- A character of a word stands behind `n` others. -/
def isWordAt (text : Array Char) (n : Nat) : Bool := text[n]?.any (Text.inRanges Text.wordRanges)

/-- The place, if the condition holds there. -/
def Spot.atBoundary (text : Array Char) (s : Spot) (b : Boundary) : Option Spot :=
  let isBehindWord := s.place ≠ 0 && isWordAt text (s.place - 1)
  let isBeforeWord := isWordAt text s.place
  let only (holds : Bool) : Option Spot := if holds then some s else none
  match b with
  | .textStart => only (s.place = 0)
  | .textEnd => only (s.place = text.size)
  | .lineStart => only (s.place = 0 || (s.hasMoved && text[s.place - 1]? = some '\n'))
  | .lineEnd =>
    if s.place = text.size then some s
    else if text[s.place]? = some '\n' then some { s with owesBreak := true }
    else none
  | .wordStart => only (!isBehindWord && isBeforeWord)
  | .wordEnd => only (isBehindWord && !isBeforeWord)
  | .wordEdge => only (isBehindWord != isBeforeWord)
  | .noWordEdge => only (isBehindWord == isBeforeWord)

/-- The place `n` characters further on, if the text goes that far and nothing else is owed there. -/
def Spot.moved? (text : Array Char) (s : Spot) (n : Nat) : Option Spot :=
  if n = 0 then some s
  else if text.size < s.place + n then none
  else if s.owesBreak && text[s.place]? != some '\n' then none
  else some { s with place := s.place + n, hasMoved := true, owesBreak := false }

/-- The places after so many steps. The steps end early where they lead nowhere new. -/
def afterSteps (step : List Spot → List Spot) : Nat → List Spot → List Spot
  | 0, spots => spots
  | n + 1, spots =>
    let next := step spots
    if next = spots then spots else afterSteps step n next

/-- The places that are reached in `rounds` steps or fewer: `found` and what can be reached from `last`,
the newest of them. -/
def withinSteps (step : List Spot → List Spot) : (rounds : Nat) → (found last : List Spot) → List Spot
  | 0, found, _ => found
  | rounds + 1, found, last =>
    match (step last).filter (!found.contains ·) with
    | [] => found
    | new => withinSteps step rounds (found ++ new) new

/-- The characters from one place to another. -/
def between (text : Array Char) (first last : Nat) : List Char := (text.extract first last).toList

/-- The place behind the part that a group went over, if it stands here once more. -/
def repeatPart (text : Array Char) (n : Nat) (s : Spot) : Option Spot := do
  let (first, last) ← s.parts.lookup n
  let s' ← s.moved? text (last - first)
  if between text s.place s'.place = between text first last then some s' else none

/-- The places that are reached from places by going over a part that is as the expression says. -/
def reach (text : Array Char) : Expression → List Spot → List Spot
  | empty, spots => spots
  | oneOf isNegated ranges, spots => spots.filterMap fun s => do
    let c ← text[s.place]?
    if Text.inRanges ranges c != isNegated then s.moved? text 1 else none
  | boundary b, spots => spots.filterMap (·.atBoundary text b)
  | followedBy e f, spots => reach text f (reach text e spots)
  | either e f, spots => (reach text e spots ++ reach text f spots).eraseDups
  | times low high e, spots =>
    let start := afterSteps (reach text e) low spots
    withinSteps (reach text e) ((high.map (· - low)).getD (2 * text.size + 2)) start start
  | group n e, spots => (spots.flatMap fun s => (reach text e [s]).map fun r =>
      { r with parts := (n, s.place, r.place) :: r.parts.filter (·.1 != n) }).eraseDups
  | again n, spots => spots.filterMap (repeatPart text n)

/-- The expression without the groups whose parts are not asked for again. -/
def withoutIdleGroups (asked : List Nat) : Expression → Expression
  | followedBy e f => followedBy (e.withoutIdleGroups asked) (f.withoutIdleGroups asked)
  | either e f => either (e.withoutIdleGroups asked) (f.withoutIdleGroups asked)
  | times low high e => times low high (e.withoutIdleGroups asked)
  | group n e =>
    if asked.contains n then group n (e.withoutIdleGroups asked) else e.withoutIdleGroups asked
  | e => e

/-- The groups whose parts an expression asks for again. -/
def askedGroups : Expression → List Nat
  | followedBy e f | either e f => e.askedGroups ++ f.askedGroups
  | times _ _ e | group _ e => e.askedGroups
  | again n => [n]
  | _ => []

/-- Some part of the text is as the expression says. -/
def isFound (e : Expression) (t : Text) : Bool :=
  let text := (Text.byteChars t).toArray
  let starts := (List.range (text.size + 1)).map fun n => { place := n }
  (reach text (e.withoutIdleGroups e.askedGroups) starts).any (!·.owesBreak)

/-- Some part of the text is as the expression says that `pattern` spells. -/
def finds (pattern t : String) : Option Bool := (read pattern.toList).map (isFound · t.toList)

example : finds "^in.*l" "initial commit" = some true := by decide +kernel
example : finds "(m)\\1" "initial commit" = some true := by decide
example : finds "x|com{1,2}it$" "initial commit\n" = some false := by decide +kernel
example : finds "a|*b" "ab" = none := by decide

end Expression

end Emend
