import Emend.Text.Template.Layout

/-!
# Templates

A template is a text with named places: `{name}` stands for the text of that name, and `{{` and `}}`
for the braces themselves. A place may pick one character by its number (`{name[0]}`) or speak of the
text as a thing (`{name.part}`, see `Subject`), show what it stands for quoted (`!r`, or `!a` in ASCII
only; `!s` changes nothing), and lay it out (`:`, then a `Layout`). The layout may itself hold places, one
level deep.

`fill` puts texts into the places or says what is wrong with the template.
-/

namespace Emend.Template

/-! ## Cutting a template into pieces -/

/-- A place of a template. -/
structure Place where
  field : Text
  conversion : Option Char := none
  layout : Text := []
  /-- The layout holds places of its own. -/
  nested : Bool := false

/-- A piece of a template. -/
inductive Piece where
  | literal (c : Char)
  | place (p : Place)

/-- Reads up to the end of a field name: the name, the character that ends it, and what follows.
Inside square brackets everything belongs to the name; `inBrackets` tells that the text starts
there. -/
def readField : (inBrackets : Bool) → Text → Except Error (Text × Char × Text)
  | _, [] => .error (.malformed "expected '\x7d' before end of string")
  | true, c :: t => do
    let (name, stop, rest) ← readField (c != ']') t
    return (c :: name, stop, rest)
  | false, c :: t =>
    if c = '{' then .error (.malformed "unexpected '\x7b' in field name")
    else if c = '}' || c = ':' || c = '!' then .ok ([], c, t)
    else do
      let (name, stop, rest) ← readField (c == '[') t
      return (c :: name, stop, rest)

/-- Reads a layout up to the brace that closes its place, `depth` braces having been opened in it. -/
def readLayout : (depth : Nat) → Text → Except Error (Text × Text)
  | _, [] => .error (.malformed "unmatched '\x7b' in format spec")
  | depth, c :: t =>
    if c = '}' ∧ depth = 0 then .ok ([], t)
    else do
      let depth := if c = '{' then depth + 1 else if c = '}' then depth - 1 else depth
      let (layout, rest) ← readLayout depth t
      return (c :: layout, rest)

/-- Reads the rest of a place behind its field name and a colon. -/
def readLaidOut (field : Text) (conversion : Option Char) (t : Text) : Except Error (Place × Text) := do
  let (layout, rest) ← readLayout 0 t
  return (⟨field, conversion, layout, layout.contains '{'⟩, rest)

/-- Reads a place behind its opening brace. -/
def readPlace (t : Text) : Except Error (Place × Text) := do
  let (field, stop, rest) ← readField false t
  if stop = '}' then return ({ field }, rest)
  else if stop = ':' then readLaidOut field none rest
  else match rest with
    | [] => .error (.malformed "end of string while looking for conversion specifier")
    | [_] => .error (.malformed "unmatched '\x7b' in format spec")
    | c :: '}' :: rest => return ({ field, conversion := some c }, rest)
    | c :: ':' :: rest => readLaidOut field (some c) rest
    | _ => .error (.malformed "expected ':' after conversion specifier")

/-- Reads the next piece of a template, `none` at its end. -/
def nextPiece : Text → Except Error (Option (Piece × Text))
  | [] => .ok none
  | '}' :: '}' :: t => .ok (some (.literal '}', t))
  | '}' :: _ => .error (.malformed "Single '\x7d' encountered in format string")
  | '{' :: '{' :: t => .ok (some (.literal '{', t))
  | ['{'] => .error (.malformed "Single '\x7b' encountered in format string")
  | '{' :: t => do
    let (p, rest) ← readPlace t
    return some (.place p, rest)
  | c :: t => .ok (some (.literal c, t))

/-! ## What a field stands for -/

/-- A subject's part or item, or the error for the whole template. -/
def subjectOr (e : Except Subject.Error Subject) : Except Error Subject := e.mapError .subject

/-- The key that stands in brackets. -/
def keyOf (t : Text) : Except Error Key := do return (← number? t).elim (.name t) .index

/-- Looks up parts and items of a subject as the rest of a field asks. -/
def pick : (fuel : Nat) → Subject → (rest : Text) → Except Error Subject
  | 0, value, _ => .ok value
  | _ + 1, value, [] => .ok value
  | fuel + 1, value, '.' :: t =>
    match t.takeWhile fun c => c != '.' && c != '[' with
    | [] => .error (.malformed "Empty attribute in format string")
    | name => do
      pick fuel (← subjectOr (value.part name)) (t.drop name.length)
  | fuel + 1, value, '[' :: t =>
    match t.dropWhile (· != ']') with
    | [] => .error (.malformed "Missing ']' in format string")
    | _ :: rest =>
      match t.takeWhile (· != ']') with
      | [] => .error (.malformed "Empty attribute in format string")
      | index => do
        pick fuel (← subjectOr (value.item (← keyOf index))) rest
  | _ + 1, _, _ =>
    .error (.malformed "Only '.' or '[' may follow ']' in format field specifier")

/-- What a field stands for. -/
def fieldValue (values : List (Text × Text)) (field : Text) : Except Error Subject :=
  let name := field.takeWhile fun c => c != '.' && c != '['
  let rest := field.drop name.length
  if name.isEmpty then .error (.noNumbered 0)
  else do
    match ← number? name with
    | some n => .error (.noNumbered n)
    | none => match values.lookup name with
      | none => .error (.unknownName name)
      | some v => pick (rest.length + 1) (.text v) rest

/-- The text with all but ASCII escaped. -/
def inAscii (t : Text) : Text :=
  t.flatMap fun c =>
    let n := c.toNat
    if n < 0x80 then [c]
    else if n < 0x100 then '\\' :: 'x' :: Text.hex 2 n
    else if n < 0x10000 then '\\' :: 'u' :: Text.hex 4 n
    else '\\' :: 'U' :: Text.hex 8 n

/-- Shows a subject as the conversion asks; the null character asks for nothing. -/
def convert (s : Subject) : Option Char → Except Error Subject
  | none | some '\x00' => .ok s
  | some 's' => .ok (.text s.shown)
  | some 'r' => .ok (.text s.quoted)
  | some 'a' => .ok (.text (inAscii s.quoted))
  | some c => .error (.unknownConversion c)

/-! ## Filling a template -/

/-- Fills the places of a template. `nested` fills a layout that has places of its own, and `fuel` bounds
the number of pieces. -/
def fillPieces (values : List (Text × Text)) (nested : Text → Except Error Text) :
    (fuel : Nat) → Text → Except Error Text
  | 0, _ => .ok []
  | fuel + 1, t => do
    match ← nextPiece t with
    | none => return []
    | some (.literal c, rest) => return c :: (← fillPieces values nested fuel rest)
    | some (.place p, rest) =>
      let value ← fieldValue values p.field
      let value ← convert value p.conversion
      let layout ← if p.nested then nested p.layout else pure p.layout
      let shown ← layOut value layout
      return shown ++ (← fillPieces values nested fuel rest)

/-- Fills the places of a template. `depth` is the number of levels that may still be nested. -/
def fillDeep (values : List (Text × Text)) : (depth : Nat) → Text → Except Error Text
  | 0, _ => .error (.malformed "Max string recursion exceeded")
  | depth + 1, t => fillPieces values (fillDeep values depth) (t.length + 1) t

/-- The template with the values in its places. -/
def fill (values : List (Text × Text)) (template : Text) : Except Error Text :=
  fillDeep values 2 template

end Emend.Template
