import Emend.Yaml.Scalar
import Emend.Yaml.Stream

/-!
# Tokens of YAML

`tokens` cuts a text into tokens. Where a block collection begins or ends is not written in the text
but follows from the columns, and that something is a key shows only at the colon behind it. The
`Lexer` therefore remembers for each open collection where its last possible key began, and puts the
token for the key there when the colon comes. A key that begins a line of a block collection has to
be followed by a colon, on its line and within 1024 characters.

A text is read from its start, so `Tokens` holds also the first error, behind the tokens that come before
it. The text is loaded on the way, portion by portion, and one that cannot be loaded counts from the moment
at which a character of it has to be looked at.
-/

namespace Emend.Yaml

/-- What a line that begins with a percent sign says. -/
inductive Directive where
  | version (major : Nat)
  | tag (handle : Text) (start : Text)
  | other
  deriving DecidableEq, Repr

/-- A token. -/
inductive Token where
  | directive (d : Directive)
  | documentStart
  | documentEnd
  | blockSequenceStart
  | blockMappingStart
  | blockEnd
  | flowSequenceStart
  | flowSequenceEnd
  | flowMappingStart
  | flowMappingEnd
  | blockEntry
  | flowEntry
  | key
  | value
  | alias (name : Text)
  | anchor (name : Text)
  | tag (handle : Option Text) (suffix : Text)
  | scalar (text : Text.Points) (isPlain : Bool)
  deriving DecidableEq, Repr

/-! ## Tags, names and directives -/

/-- Reads a name, which must not be empty. -/
def readName (c : Cursor) : Except Fault (Text × Cursor) :=
  match c.takeWhile isNameChar with
  | ([], _) => c.refuse "expected alphabetic or numeric character"
  | r => .ok r

/-- Reads the name of an anchor behind its sign. -/
def readAnchorName (c : Cursor) : Except Fault (Text × Cursor) := do
  let (name, c) ← readName c
  if c.seesOrEnds fun ch => isWhite ch || "?:,]\x7d%@`".toList.contains ch then return (name, c)
  else c.refuse "expected alphabetic or numeric character"

/-- The character may stand in a tag as itself. -/
def isTagChar (c : Char) : Bool :=
  isNameChar c || ";/?:@&=+$,_.!~*'()[]".toList.contains c

/-- Reads the bytes of escapes at the front: each a percent sign with two digits. -/
def readByteEscapes : (fuel : Nat) → Cursor → Except Fault (Bytes × Cursor)
  | 0, c => .ok ([], c)
  | fuel + 1, c =>
    match c.rest with
    | '%' :: a :: b :: _ =>
      match Text.digits? 16 [a, b] with
      | none => c.refuse "expected URI escape sequence of 2 hexadecimal numbers"
      | some n => do
        let (bs, c) ← readByteEscapes fuel (c.advanceBy 3)
        return (n.toUInt8 :: bs, c)
    | '%' :: _ => c.refuse "expected URI escape sequence of 2 hexadecimal numbers"
    | _ => .ok ([], c)

/-- Reads the text of a tag, in pieces. -/
def readTagPieces : (fuel : Nat) → Cursor → Except Fault (Text × Cursor)
  | 0, c => .ok ([], c)
  | fuel + 1, c =>
    let (piece, c) := c.takeWhile isTagChar
    if c.sees (· = '%') then do
      let (bs, c) ← readByteEscapes c.left c
      match Utf8.decode bs with
      | .error _ => c.refuse "tag is not UTF-8"
      | .ok t => do
        let (more, c) ← readTagPieces fuel c
        return (piece ++ t ++ more, c)
    else .ok (piece, c)

/-- Reads the text of a tag, which must not be empty. -/
def readTagText (c : Cursor) : Except Fault (Text × Cursor) := do
  let (t, c') ← readTagPieces (c.left + 1) c
  if c'.index = c.index then c.refuse "expected URI" else return (t, c')

/-- Reads the handle of a tag: an exclamation mark, or a name between two of them. -/
def readHandle (c : Cursor) : Except Fault (Text × Cursor) :=
  if !c.sees (· = '!') then c.refuse "expected '!'"
  else
    let (name, c') := c.advance.takeWhile isNameChar
    if c'.sees (· = '!') then .ok ('!' :: name ++ ['!'], c'.advance)
    else if name.isEmpty && c'.sees (· = ' ') then .ok (['!'], c')
    else c.refuse "expected '!'"

/-- The character is a space or ends a line. -/
def isSpaceOrBreak (c : Char) : Bool := c = ' ' || isBreak c

/-- Reads a tag at its exclamation mark. -/
def readTag (c : Cursor) : Except Fault (Token × Cursor) := do
  let (token, c) ← match c.advance.peek with
    | some '<' => do
      let (suffix, c) ← readTagText (c.advanceBy 2)
      if c.sees (· = '>') then pure (Token.tag none suffix, c.advance)
      else c.refuse "expected '>'"
    | next =>
      if next.all isWhite then pure (Token.tag none ['!'], c.advance)
      else do
        let word := c.advance.rest.takeWhile (!isSpaceOrBreak ·)
        let (handle, c) ← if word.contains '!' then readHandle c else pure (['!'], c.advance)
        let (suffix, c) ← readTagText c
        pure (Token.tag (some handle) suffix, c)
  if c.seesOrEnds isSpaceOrBreak then return (token, c)
  else c.refuse "expected ' '"

/-- Reads a number of a version. -/
def readVersionNumber (c : Cursor) : Except Fault (Nat × Cursor) :=
  match c.takeWhile Char.isDigit with
  | ([], _) => c.refuse "expected a digit"
  | (ds, c) => match wholeIn 10 (Text.Points.ofText ds) with
    | .ok n => .ok (n.toNat, c)
    | .error e => .error ⟨e, c.index⟩

/-- Reads a version: two numbers with a point between. -/
def readVersion (c : Cursor) : Except Fault (Directive × Cursor) := do
  let (major, c) ← readVersionNumber c.skipSpaces
  if !c.sees (· = '.') then c.refuse "expected a digit or '.'"
  else
    let (_, c) ← readVersionNumber c.advance
    if c.seesOrEnds isSpaceOrBreak then return (.version major, c)
    else c.refuse "expected a digit or ' '"

/-- Reads the declaration of a handle. -/
def readHandleDeclaration (c : Cursor) : Except Fault (Directive × Cursor) := do
  let (handle, c) ← readHandle c.skipSpaces
  if !c.sees (· = ' ') then c.refuse "expected ' '"
  else
    let (start, c) ← readTagText c.skipSpaces
    if c.seesOrEnds isSpaceOrBreak then return (.tag handle start, c)
    else c.refuse "expected ' '"

/-- Reads a directive behind its percent sign, and the rest of its line. -/
def readDirective (c : Cursor) : Except Fault (Token × Cursor) := do
  let (name, c) ← readName c
  if !c.seesOrEnds isSpaceOrBreak then
    c.refuse "expected alphabetic or numeric character"
  else
    let (d, c) ← if name = "YAML".toList then readVersion c
      else if name = "TAG".toList then readHandleDeclaration c
      else pure (.other, c.skipWhile (!isBreak ·))
    return (.directive d, ← finishLine c)

/-! ## The lexer -/

/-- Where a possible key began. -/
structure PossibleKey where
  /-- How many tokens there were before it. -/
  position : Nat
  /-- A colon has to follow. -/
  isRequired : Bool
  index : Nat
  line : Nat
  column : Nat
  deriving Repr

/-- The state between two tokens. -/
structure Lexer where
  cursor : Cursor
  /-- The column of the innermost block collection; -1 outside all. -/
  indent : Int := -1
  /-- The columns of the block collections around it. -/
  outer : List Int := []
  /-- A key may begin here. -/
  allowsKey : Bool := true
  /-- The possible key of the collection at hand. -/
  possible : Option PossibleKey := none
  /-- The possible keys of the collections around the flow collections that are open. -/
  outerPossible : List (Option PossibleKey) := []
  /-- The tokens so far, the last one first. -/
  behind : List Token := []
  /-- Their number. -/
  count : Nat := 0

namespace Lexer

/-- A flow collection is open. -/
def inFlow (l : Lexer) : Bool := !l.outerPossible.isEmpty

/-- The lexer with a token added. -/
def push (l : Lexer) (t : Token) : Lexer := { l with behind := t :: l.behind, count := l.count + 1 }

/-- The lexer further on in the text. -/
def moveTo (l : Lexer) (c : Cursor) : Lexer := { l with cursor := c }

/-- The lexer with a token inserted among those it has. -/
def insert (l : Lexer) (position : Nat) (t : Token) : Lexer :=
  { l with behind := l.behind.insertIdx (l.count - position) t, count := l.count + 1 }

/-- A key lacks its colon at the cursor. -/
def missingColon {α : Type} (c : Cursor) : Except Fault α := c.refuse "could not find expected ':'"

/-- The possible key, unless it began too far back. -/
def fresh (c : Cursor) (k : Option PossibleKey) : Except Fault (Option PossibleKey) :=
  match k with
  | none => .ok none
  | some k =>
    if k.line = c.line ∧ c.index ≤ k.index + 1024 then .ok (some k)
    else if k.isRequired then missingColon c
    else .ok none

/-- Forgets the possible keys that began too far back. -/
def dropStale (l : Lexer) : Except Fault Lexer := do
  return { l with possible := ← fresh l.cursor l.possible,
                  outerPossible := ← l.outerPossible.mapM (fresh l.cursor) }

/-- Forgets the possible key of the collection at hand. -/
def dropKey (l : Lexer) : Except Fault Lexer :=
  match l.possible with
  | none => .ok l
  | some k => if k.isRequired then missingColon l.cursor else .ok { l with possible := none }

/-- Remembers that a key may begin here. -/
def rememberKey (l : Lexer) : Except Fault Lexer := do
  if !l.allowsKey then return l
  else
    let l ← l.dropKey
    let c := l.cursor
    let isRequired := !l.inFlow && l.indent == c.column
    return { l with possible := some ⟨l.count, isRequired, c.index, c.line, c.column⟩ }

/-- Ends block collections up to one at `column` or further left. -/
def unwindFrom (column : Int) : (outer : List Int) → Lexer → Lexer
  | [], l => l
  | o :: os, l =>
    if column < l.indent then unwindFrom column os ({ l with indent := o, outer := os }.push .blockEnd)
    else l

/-- Ends the block collections that lie further right than `column`. -/
def unwind (l : Lexer) (column : Int) : Lexer :=
  if l.inFlow then l else unwindFrom column l.outer l

/-- Begins a block collection at a column, if none is there or further right. -/
def indentTo (l : Lexer) (column : Nat) : Lexer × Bool :=
  if l.indent < column then ({ l with indent := column, outer := l.indent :: l.outer }, true)
  else (l, false)

/-- Begins a block collection at the cursor, if none is there. -/
def beginBlock (l : Lexer) (start : Token) : Lexer :=
  match l.indentTo l.cursor.column with
  | (l, true) => l.push start
  | (l, false) => l

/-- Skips spaces, comments and line ends. A key may begin behind a line end. -/
def skipFiller : (fuel : Nat) → Lexer → Lexer
  | 0, l => l
  | fuel + 1, l =>
    let c := l.cursor.skipSpaces.skipComment
    match c.readBreak with
    | none => l.moveTo c
    | some (_, c) => skipFiller fuel { l with cursor := c, allowsKey := l.allowsKey || !l.inFlow }

/-- Adds a token of so many characters behind which no key may begin. -/
def pushSeparator (l : Lexer) (t : Token) (width : Nat) : Except Fault Lexer := do
  let l ← (l.unwind (-1)).dropKey
  return { l.push t with allowsKey := false, cursor := l.cursor.advanceBy width }

/-- Opens a flow collection. -/
def openFlow (l : Lexer) (t : Token) : Except Fault Lexer := do
  let l ← l.rememberKey
  return { l.push t with possible := none, outerPossible := l.possible :: l.outerPossible,
                         allowsKey := true, cursor := l.cursor.advance }

/-- Closes a flow collection. Outside all of them the token stands alone. -/
def closeFlow (l : Lexer) (t : Token) : Except Fault Lexer := do
  let l ← l.dropKey
  let l := { l.push t with allowsKey := false, cursor := l.cursor.advance }
  match l.outerPossible with
  | [] => l.cursor.refuse "a bracket is closed that was not opened"
  | k :: ks => return { l with possible := k, outerPossible := ks }

/-- Adds the token of an entry of a block sequence. -/
def pushEntry (l : Lexer) : Except Fault Lexer :=
  if !l.inFlow && !l.allowsKey then l.cursor.refuse "sequence entries are not allowed here"
  else do
    let l ← (if l.inFlow then l else l.beginBlock .blockSequenceStart).dropKey
    return { l.push .blockEntry with allowsKey := true, cursor := l.cursor.advance }

/-- Adds the token of a key that is marked as one. -/
def pushKey (l : Lexer) : Except Fault Lexer :=
  if !l.inFlow && !l.allowsKey then l.cursor.refuse "mapping keys are not allowed here"
  else do
    let l ← (if l.inFlow then l else l.beginBlock .blockMappingStart).dropKey
    return { l.push .key with allowsKey := !l.inFlow, cursor := l.cursor.advance }

/-- Puts the token of a key before what turns out to be one. -/
def promote (l : Lexer) (k : PossibleKey) : Lexer :=
  let l := { l.insert k.position .key with possible := none, allowsKey := false }
  if l.inFlow then l
  else match l.indentTo k.column with
    | (l, true) => l.insert k.position .blockMappingStart
    | (l, false) => l

/-- Adds the token of a value. -/
def pushValue (l : Lexer) : Except Fault Lexer := do
  let l ← match l.possible with
    | some k => pure (l.promote k)
    | none =>
      if !l.inFlow && !l.allowsKey then l.cursor.refuse "mapping values are not allowed here"
      else
        let l := if l.inFlow then l else l.beginBlock .blockMappingStart
        pure { l with allowsKey := !l.inFlow }
  return { l.push .value with cursor := l.cursor.advance }

/-- Adds a token that may begin a key. -/
def pushNode (l : Lexer) (read : Cursor → Except Fault (Token × Cursor)) : Except Fault Lexer := do
  let l ← l.rememberKey
  let (t, c) ← read l.cursor
  return { l.push t with allowsKey := false, cursor := c }

/-- Adds a plain scalar. Behind a line end a key may begin. -/
def pushPlain (l : Lexer) : Except Fault Lexer := do
  let l ← l.rememberKey
  let (t, ended, c) := readPlain l.inFlow (l.indent + 1) (l.cursor.left + 1) l.cursor
  return { l.push (.scalar (.ofText t) true) with allowsKey := ended, cursor := c }

/-- Adds a block scalar. -/
def pushBlock (l : Lexer) (folds : Bool) : Except Fault Lexer := do
  let l ← { l with allowsKey := true }.dropKey
  let (t, c) ← readBlock folds l.indent l.cursor.advance
  return { l.push (.scalar (.ofText t) false) with cursor := c }

/-- Reads a quoted scalar at its opening mark. -/
def readQuotedToken (isDouble : Bool) (c : Cursor) : Except Fault (Token × Cursor) := do
  let (t, c) ← readQuoted isDouble (c.left + 1) c.advance
  return (.scalar t false, c)

/-- A plain scalar begins here. -/
def beginsPlain (c : Cursor) (inFlow : Bool) (ch : Char) : Bool :=
  (!isWhite ch && !"-?:,[]\x7b\x7d#&*!|>'\"%@`".toList.contains ch) ||
    (!c.seesOrEndsAt 1 isWhite && (ch = '-' || (!inFlow && (ch = '?' || ch = ':'))))

/-- Adds the token that begins with the character at the cursor. -/
def pushToken (l : Lexer) (ch : Char) : Except Fault Lexer :=
  let c := l.cursor
  let alone := l.inFlow || c.seesOrEndsAt 1 isWhite
  if c.column = 0 && ch = '%' then do
    let l ← (l.unwind (-1)).dropKey
    let (t, c) ← readDirective l.cursor.advance
    return { l.push t with allowsKey := false, cursor := c }
  else if c.column = 0 && c.seesWord "---" then l.pushSeparator .documentStart 3
  else if c.column = 0 && c.seesWord "..." then l.pushSeparator .documentEnd 3
  else if ch = '[' then l.openFlow .flowSequenceStart
  else if ch = '{' then l.openFlow .flowMappingStart
  else if ch = ']' then l.closeFlow .flowSequenceEnd
  else if ch = '}' then l.closeFlow .flowMappingEnd
  else if ch = ',' then do
    let l ← l.dropKey
    return { l.push .flowEntry with allowsKey := true, cursor := c.advance }
  else if ch = '-' && c.seesOrEndsAt 1 isWhite then l.pushEntry
  else if ch = '?' && alone then l.pushKey
  else if ch = ':' && alone then l.pushValue
  else if ch = '*' then l.pushNode fun c => do
    let (name, c) ← readAnchorName c.advance
    return (.alias name, c)
  else if ch = '&' then l.pushNode fun c => do
    let (name, c) ← readAnchorName c.advance
    return (.anchor name, c)
  else if ch = '!' then l.pushNode readTag
  else if ch = '|' && !l.inFlow then l.pushBlock false
  else if ch = '>' && !l.inFlow then l.pushBlock true
  else if ch = '\'' then l.pushNode (readQuotedToken false)
  else if ch = '"' then l.pushNode (readQuotedToken true)
  else if beginsPlain c l.inFlow ch then l.pushPlain
  else c.refuse "found character that cannot start any token"

/-- Takes the next step: adds the token at the cursor, or those that end the text. -/
def step (l : Lexer) : Except Fault (Lexer × Bool) := do
  let l ← l.dropStale
  let l ← (skipFiller (l.cursor.left + 1) l).dropStale
  let l := l.unwind l.cursor.column
  match l.cursor.peek with
  | some ch => return (← l.pushToken ch, false)
  | none => return (← (l.unwind (-1)).dropKey, true)

/-- The number of tokens before which no token can be put any more. -/
def settled (l : Lexer) : Nat :=
  (l.possible :: l.outerPossible).foldl (fun n k => match k with
    | some k => min n k.position
    | none => n) l.count

/-- The tokens so far, in their order. -/
def tokens (l : Lexer) : List Token := l.behind.reverse

end Lexer

/-- The tokens of a text up to its end, or up to the error that lies behind them. -/
structure Tokens where
  tokens : List Token
  error : Option Error := none

/-- The error that counts where a reader refuses the text: that of the load, if the reader had to look
that far. -/
def Fault.errorBefore (f : Fault) : (load : Option Fault) → Error
  | some l => if l.index ≤ f.index then l.error else f.error
  | none => f.error

/-- The token opens a collection. -/
def Token.opens : Token → Bool
  | .blockSequenceStart | .blockMappingStart | .flowSequenceStart | .flowMappingStart => true
  | _ => false

/-- The token closes a collection. -/
def Token.closes : Token → Bool
  | .blockEnd | .flowSequenceEnd | .flowMappingEnd => true
  | _ => false

/-- The greatest number of collections that may stand in one another. -/
def maxDepth : Nat := 488

/-- The position of the first token that opens one collection too many, `depth` being open already and
`position` tokens lying behind. -/
def tooDeepAt? (depth position : Nat) : List Token → Option Nat
  | [] => none
  | t :: ts =>
    if t.opens && depth = maxDepth then some position
    else tooDeepAt? (if t.opens then depth + 1 else if t.closes then depth - 1 else depth) (position + 1) ts

/-- The tokens as far as they can be read. -/
def Tokens.readable (ts : Tokens) : Tokens :=
  match tooDeepAt? 0 0 ts.tokens with
  | some n => ⟨ts.tokens.take n, some (.scalar .tooDeep)⟩
  | none => ts

/-- Reads tokens up to the end of the text, no further than to a character that could not be loaded.
Every token takes a character, so `fuel` need not exceed their number. Before an error those tokens count
before which nothing can be put any more. -/
def Lexer.run (load : Option Fault) : (fuel : Nat) → Lexer → Tokens
  | 0, l => ⟨l.tokens, none⟩
  | fuel + 1, l =>
    let stopped (e : Error) : Tokens := ⟨l.tokens.take l.settled, some e⟩
    match l.step with
    | .error f => stopped (f.errorBefore load)
    | .ok (next, isLast) =>
      match load.filter (·.index ≤ next.cursor.index) with
      | some f => stopped f.error
      | none => if isLast then ⟨next.tokens, none⟩ else run load fuel next

/-- The tokens of a text. A byte order mark at its front is no part of it. -/
def Stream.tokens (s : Stream) : Tokens :=
  let start := Cursor.ofText s.text
  let start := if start.sees (· = byteOrderMark) then start.advance else start
  (Lexer.run s.fault? (s.text.length + 1) { cursor := start }).readable

end Emend.Yaml
