import Emend.Yaml.Cursor

/-!
# Scalars of YAML

The texts of scalars in their four forms: plain, in single marks, in double marks, and as an indented
block. Lines of the first three are folded: a single line end between two lines stands for a space,
and further ones stand for themselves. A block keeps its lines (`|`) or folds them (`>`).
-/

namespace Emend.Yaml

/-- Reads line ends as long as `next` leads to one, and answers them with the cursor behind the last.
`fuel` bounds their number. -/
def readBreaks (next : Cursor → Cursor) : (fuel : Nat) → Cursor → Text × Cursor
  | 0, c => ([], next c)
  | fuel + 1, c =>
    let c := next c
    match c.readBreak with
    | none => ([], c)
    | some (b, c) =>
      let (bs, c) := readBreaks next fuel c
      (b :: bs, c)

/-- What a line end followed by other line ends stands for in folded text. -/
def folded (first : Char) (more : Text) : Text :=
  if first = '\n' then (if more.isEmpty then [' '] else more) else first :: more

/-! ## Plain scalars -/

/-- The characters that a flow collection keeps for itself. -/
def isFlowIndicator (c : Char) : Bool := c = ',' || c = '[' || c = ']' || c = '{' || c = '}'

/-- The characters of a plain scalar on its line. A colon belongs to it unless white space follows. -/
def plainRun (inFlow : Bool) : Text → Text
  | [] => []
  | c :: t =>
    let ends := isWhite c || (inFlow && (isFlowIndicator c || c = '?')) ||
      (c = ':' && t.head?.all fun d => isWhite d || (inFlow && isFlowIndicator d))
    if ends then [] else c :: plainRun inFlow t

/-- Skips to the next line of a plain scalar line by line, and answers the line ends passed; `none`
where a document ends. -/
def plainBreaks : (fuel : Nat) → Cursor → Option Text × Cursor
  | 0, c => (some [], c)
  | fuel + 1, c =>
    let c := c.skipSpaces
    match c.readBreak with
    | none => (some [], c)
    | some (b, c) =>
      if c.seesSeparator then (none, c)
      else
        let (bs, c) := plainBreaks fuel c
        (bs.map (b :: ·), c)

/-- Reads what stands between two runs of a plain scalar: its meaning, whether a line ended in it,
and the cursor behind it. -/
def plainGap (c : Cursor) : Text × Bool × Cursor :=
  let (spaces, c) := c.takeWhile (· = ' ')
  match c.readBreak with
  | none => (spaces, false, c)
  | some (b, c) =>
    if c.seesSeparator then ([], true, c)
    else match plainBreaks c.left c with
      | (none, c) => ([], true, c)
      | (some bs, c) => (folded b bs, true, c)

/-- The text of a plain scalar whose lines are indented by `indent` at least. Answers also whether a
line ended behind its last run. -/
def readPlain (inFlow : Bool) (indent : Int) : (fuel : Nat) → Cursor → Text × Bool × Cursor
  | 0, c => ([], false, c)
  | fuel + 1, c =>
    let run := if c.sees (· = '#') then [] else plainRun inFlow c.rest
    if run.isEmpty then ([], false, c)
    else
      let (gap, ended, c) := plainGap (c.advanceBy run.length)
      if gap.isEmpty || c.sees (· = '#') || (!inFlow && decide ((c.column : Int) < indent)) then
        (run, ended, c)
      else
        let (more, endedLater, c) := readPlain inFlow indent fuel c
        if more.isEmpty then (run, ended, c) else (run ++ gap ++ more, endedLater, c)

/-! ## Quoted scalars -/

/-- What the letters behind a backslash stand for. -/
def escapes : List (Char × Char) :=
  [('0', '\x00'), ('a', '\x07'), ('b', '\x08'), ('t', '\t'), ('\t', '\t'), ('n', '\n'), ('v', '\x0b'),
   ('f', '\x0c'), ('r', '\r'), ('e', '\x1b'), (' ', ' '), ('"', '"'), ('\\', '\\'), ('/', '/'),
   ('N', '\u0085'), ('_', '\u00a0'), ('L', '\u2028'), ('P', '\u2029')]

/-- How many digits follow the letters that stand for a code point. -/
def escapeDigits : List (Char × Nat) := [('x', 2), ('u', 4), ('U', 8)]

/-- The point of that code. -/
def pointOf (code : Nat) : Except Error Text.Point :=
  if 0xD800 ≤ code ∧ code ≤ 0xDFFF then .ok (.half code)
  else if 0x80000000 ≤ code then
    .error (.scalar (.overflow "Python int too large to convert to C int".toList))
  else if 0x110000 ≤ code then .error (.bad "chr() arg not in range(0x110000)".toList)
  else .ok (.char (Char.ofNat code))

/-- Reads `n` hexadecimal digits and answers the point of that code. -/
def readCode (n : Nat) (c : Cursor) : Except Fault (Text.Point × Cursor) :=
  let digits := (c.rest.take n).takeWhile fun ch => (Text.hexDigit? ch).isSome
  if digits.length < n then (c.advanceBy digits.length).refuse "expected hexadecimal digits"
  else match pointOf ((Text.digits? 16 digits).getD 0) with
    | .ok p => .ok (p, c.advanceBy n)
    | .error e => .error ⟨e, c.index + n - 1⟩

/-- Skips white space at the end of a line and the lines behind it: the line ends passed. -/
def quotedBreaks : (fuel : Nat) → Cursor → Except Fault (Text × Cursor)
  | 0, c => .ok ([], c)
  | fuel + 1, c =>
    if c.seesSeparator then c.refuse "found unexpected document separator"
    else
      let c := c.skipWhile fun ch => ch = ' ' || ch = '\t'
      match c.readBreak with
      | none => .ok ([], c)
      | some (b, c) => do
        let (bs, c) ← quotedBreaks fuel c
        return (b :: bs, c)

/-- Reads an escape behind its backslash. -/
def readEscape (c : Cursor) : Except Fault (Text.Points × Cursor) :=
  match c.peek with
  | none => c.refuse "found unexpected end of stream"
  | some ch =>
    match escapes.lookup ch, escapeDigits.lookup ch, c.readBreak with
    | some e, _, _ => .ok ([.char e], c.advance)
    | none, some n, _ => do
      let (p, c) ← readCode n c.advance
      return ([p], c)
    | none, none, some (_, c) => do
      let (bs, c) ← quotedBreaks (c.left + 1) c
      return (Text.Points.ofText bs, c)
    | none, none, none => c.refuse "found unknown escape character"

/-- The text of a scalar in quotation marks, read behind the opening one. -/
def readQuoted (isDouble : Bool) : (fuel : Nat) → Cursor → Except Fault (Text.Points × Cursor)
  | 0, c => c.refuse "found unexpected end of stream"
  | fuel + 1, c =>
    let put (front : Text.Points) (c : Cursor) := do
      let (t, c) ← readQuoted isDouble fuel c
      return (front ++ t, c)
    match c.rest with
    | [] => c.refuse "found unexpected end of stream"
    | '"' :: _ => if isDouble then .ok ([], c.advance) else put [.char '"'] c.advance
    | '\'' :: '\'' :: _ =>
      if isDouble then put [.char '\''] c.advance else put [.char '\''] (c.advanceBy 2)
    | '\'' :: _ => if isDouble then put [.char '\''] c.advance else .ok ([], c.advance)
    | '\\' :: _ =>
      if isDouble then do
        let (e, c) ← readEscape c.advance
        put e c
      else put [.char '\\'] c.advance
    | ch :: _ =>
      if isWhite ch then
        let (spaces, c) := c.takeWhile fun ch => ch = ' ' || ch = '\t'
        match c.readBreak with
        | none => if c.atEnd then c.refuse "found unexpected end of stream"
          else put (Text.Points.ofText spaces) c
        | some (b, c) => do
          let (bs, c) ← quotedBreaks (c.left + 1) c
          put (Text.Points.ofText (folded b bs)) c
      else put [.char ch] c.advance

/-! ## Block scalars -/

/-- What happens to the line ends at the end of a block. -/
inductive Chomping where
  | strip
  | clip
  | keep
  deriving DecidableEq, Repr

/-- Reads the sign for the line ends at the end of a block, if one stands here. -/
def readChomping (c : Cursor) : Option Chomping × Cursor :=
  match c.peek with
  | some '+' => (some .keep, c.advance)
  | some '-' => (some .strip, c.advance)
  | _ => (none, c)

/-- Reads the digit for the indentation of a block, if one stands here. -/
def readIndentation (c : Cursor) : Except Fault (Option Nat × Cursor) :=
  match c.peek with
  | none => .ok (none, c)
  | some ch =>
    if !ch.isDigit then .ok (none, c)
    else if ch = '0' then c.refuse "expected indentation indicator in the range 1-9"
    else .ok (some (ch.toNat - 0x30), c.advance)

/-- Reads the signs behind `|` or `>`, in either order. -/
def readBlockHeader (c : Cursor) : Except Fault (Chomping × Option Nat × Cursor) := do
  let (before, c) := readChomping c
  let (indentation, c) ← readIndentation c
  let (chomping, c) := match before with
    | some ch => (ch, c)
    | none => match indentation with
      | none => (Chomping.clip, c)
      | some _ => ((readChomping c).1.getD .clip, (readChomping c).2)
  if c.seesOrEnds fun ch => ch = ' ' || isBreak ch then return (chomping, indentation, c)
  else c.refuse "expected chomping or indentation indicators"

/-- Skips the rest of a line that may hold a comment only. -/
def finishLine (c : Cursor) : Except Fault Cursor :=
  let c := c.skipSpaces.skipComment
  match c.readBreak with
  | some (_, c) => .ok c
  | none => if c.atEnd then .ok c else c.refuse "expected a comment or a line break"

/-- Skips spaces up to a column. -/
def skipToColumn (column : Nat) (c : Cursor) : Cursor :=
  c.advanceBy (min (column - c.column) (c.rest.takeWhile (· = ' ')).length)

/-- Finds the indentation of a block whose lines tell it: the line ends before its first line, the
greatest column seen on the way, and the cursor at that line. -/
def detectIndentation : (fuel : Nat) → (widest : Nat) → Cursor → Text × Nat × Cursor
  | 0, widest, c => ([], widest, c)
  | fuel + 1, widest, c =>
    let c := c.skipSpaces
    let widest := max widest c.column
    match c.readBreak with
    | none => ([], widest, c)
    | some (b, c) =>
      let (bs, widest, c) := detectIndentation fuel widest c
      (b :: bs, widest, c)

/-- The lines of a block that is indented to a column, from a cursor at the first of them: its text
and the line ends behind its last line. `breaks` are the line ends before the first line. -/
def readBlockLines (folds : Bool) (column : Nat) :
    (fuel : Nat) → (breaks : Text) → Cursor → Text × Text × Text × Cursor
  | 0, breaks, c => ([], [], breaks, c)
  | fuel + 1, breaks, c =>
    if c.column != column || c.atEnd then ([], [], breaks, c)
    else
      let isIndented (c : Cursor) : Bool := c.sees fun ch => ch = ' ' || ch = '\t'
      let deeper := isIndented c
      let (line, c) := c.takeWhile (!isBreak ·)
      let (lineEnd, c) := match c.readBreak with
        | some (b, c) => ([b], c)
        | none => ([], c)
      let (after, c) := readBreaks (skipToColumn column) c.left c
      if c.column = column && !c.atEnd then
        let joint :=
          if folds && lineEnd = ['\n'] && !deeper && !isIndented c then
            (if after.isEmpty then [' '] else [])
          else lineEnd
        let (more, last, trailing, c) := readBlockLines folds column fuel after c
        (breaks ++ line ++ joint ++ more, last, trailing, c)
      else (breaks ++ line, lineEnd, after, c)

/-- The text of a block behind its `|` or `>`, in a collection that is indented to column `indent`. -/
def readBlock (folds : Bool) (indent : Int) (c : Cursor) : Except Fault (Text × Cursor) := do
  let (chomping, indentation, c) ← readBlockHeader c
  let c ← finishLine c
  let least := (max (indent + 1) 1).toNat
  let (breaks, column, c) := match indentation with
    | none =>
      let (breaks, widest, c) := detectIndentation (c.left + 1) 0 c
      (breaks, max least widest, c)
    | some n =>
      let column := least + n - 1
      let (breaks, c) := readBreaks (skipToColumn column) c.left c
      (breaks, column, c)
  let (text, last, trailing, c) := readBlockLines folds column (c.left + 1) breaks c
  return match chomping with
    | .strip => (text, c)
    | .clip => (text ++ last, c)
    | .keep => (text ++ last ++ trailing, c)

end Emend.Yaml
