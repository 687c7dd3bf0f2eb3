import Emend.Data.Shortest
import Emend.Data.Value
import Emend.Text.Integer

/-!
# JSON

`Json.write` spells a value on one line, `Json.read` reads such a text back.

The reader takes every JSON text and, beyond that, the words `NaN`, `Infinity` and `-Infinity`. A
number without fraction and exponent is whole. A text with half of a surrogate pair is read as a broken
text. A text is read from its start up to the first fault: it is malformed, a whole number in it has too
many digits, or its lists and records are nested too deeply.
-/

namespace Emend.Json

/-! ## Writing -/

/-- What stands between the parts of a record or list, and whether all but ASCII is escaped. -/
structure Style where
  itemSeparator : Text
  keySeparator : Text
  asciiOnly : Bool

/-- Without any blanks. -/
def Style.compact : Style := ⟨[','], [':'], false⟩

/-- With a blank after each comma and colon. -/
def Style.spaced : Style := ⟨[',', ' '], [':', ' '], false⟩

/-- With a blank after each comma and colon, and in ASCII only. -/
def Style.spacedAscii : Style := ⟨[',', ' '], [':', ' '], true⟩

/-- The escape of one 16-bit unit. -/
def unitEscape (n : Nat) : Text := '\\' :: 'u' :: Text.hex 4 n

/-- The escape of a character by its code point, in two units beyond U+FFFF. -/
def codeEscape (c : Char) : Text :=
  let n := c.toNat
  if n < 0x10000 then unitEscape n
  else unitEscape (0xD800 + (n - 0x10000) / 0x400) ++ unitEscape (0xDC00 + (n - 0x10000) % 0x400)

/-- How a character stands in a quoted text. -/
def writeChar (ascii : Bool) (c : Char) : Text :=
  match c with
  | '"' => ['\\', '"']
  | '\\' => ['\\', '\\']
  | '\n' => ['\\', 'n']
  | '\r' => ['\\', 'r']
  | '\t' => ['\\', 't']
  | '\x08' => ['\\', 'b']
  | '\x0c' => ['\\', 'f']
  | c => if c.toNat < 0x20 || (ascii && 0x7F ≤ c.toNat) then codeEscape c else [c]

/-- A text between quotation marks. -/
def writeText (ascii : Bool) (t : Text) : Text := '"' :: t.flatMap (writeChar ascii) ++ ['"']

mutual

/-- A value on one line. Kinds of values that JSON does not have are written as null, but for real numbers
that are not finite, which are written as words. -/
def write (s : Style) : Value → Text
  | .null => "null".toList
  | .bool b => (if b then "true" else "false").toList
  | .int i => Text.ofInt i
  | .text t => writeText s.asciiOnly t
  | .list vs => '[' :: writeItems s vs ++ [']']
  | .record fs => '{' :: writeFields s fs ++ ['}']
  | .set vs => '[' :: writeItems s vs ++ [']']
  | .real r => r.toText ⟨"Infinity", "NaN"⟩
  | .binary _ | .brokenText | .moment => "null".toList

/-- The items of a list. -/
def writeItems (s : Style) : List Value → Text
  | [] => []
  | [v] => write s v
  | v :: vs => write s v ++ s.itemSeparator ++ writeItems s vs

/-- The fields of a record. -/
def writeFields (s : Style) : List (Value × Value) → Text
  | [] => []
  | [(k, v)] => write s k ++ s.keySeparator ++ write s v
  | (k, v) :: fs => write s k ++ s.keySeparator ++ write s v ++ s.itemSeparator ++ writeFields s fs

end

/-! ## Reading -/

/-- The characters that may stand between the parts of a JSON text. -/
def isSpace (c : Char) : Bool := c = ' ' || c = '\t' || c = '\n' || c = '\r'

/-- Removes blanks at the front. -/
def skipSpace (t : Text) : Text := t.dropWhile isSpace

/-- The value of four hexadecimal digits at the front. -/
def unit? : Text → Option (Nat × Text)
  | a :: b :: c :: d :: t => do
    let n ← Text.digits? 16 [a, b, c, d]
    return (n, t)
  | _ => none

/-- What the body of a quoted text holds so far: its characters, unless one of them is broken. -/
def prepend (c : Option Char) (t : Option Text) : Option Text := do return (← c) :: (← t)

/-- Reads the body of a quoted text up to its closing mark. -/
def readBody : (fuel : Nat) → Text → Option (Option Text × Text)
  | 0, _ => none
  | _ + 1, [] => none
  | fuel + 1, c :: t =>
    let put (c : Option Char) (t : Text) : Option (Option Text × Text) :=
      (readBody fuel t).map fun (b, r) => (prepend c b, r)
    if c = '"' then some (some [], t)
    else if c = '\\' then
      match t with
      | '"' :: t => put (some '"') t
      | '\\' :: t => put (some '\\') t
      | '/' :: t => put (some '/') t
      | 'b' :: t => put (some '\x08') t
      | 'f' :: t => put (some '\x0c') t
      | 'n' :: t => put (some '\n') t
      | 'r' :: t => put (some '\r') t
      | 't' :: t => put (some '\t') t
      | 'u' :: t =>
        match unit? t with
        | none => none
        | some (n, t) =>
          if 0xD800 ≤ n ∧ n < 0xDC00 then
            match t with
            | '\\' :: 'u' :: t' =>
              match unit? t' with
              | none => none
              | some (m, t'') =>
                if 0xDC00 ≤ m ∧ m < 0xE000 then
                  put (some (Char.ofNat (0x10000 + (n - 0xD800) * 0x400 + (m - 0xDC00)))) t''
                else put none t
            | _ => put none t
          else if 0xDC00 ≤ n ∧ n < 0xE000 then put none t
          else put (some (Char.ofNat n)) t
      | _ => none
    else if c.toNat < 0x20 then none
    else put (some c) t

/-- Reads a quoted text behind its opening mark. -/
def readText (t : Text) : Option (Option Text × Text) := readBody (t.length + 1) t

/-- The digits at the front. -/
def spanDigits (t : Text) : Text × Text := t.span Char.isDigit

/-- The value of a text of digits. -/
def digitsValue (t : Text) : Nat := (Text.digits? 10 t).getD 0

/-- Reads a fraction, if one stands here: its digits. -/
def readFraction (t : Text) : Text × Text :=
  match t with
  | '.' :: r =>
    match spanDigits r with
    | ([], _) => ([], t)
    | (ds, r) => (ds, r)
  | _ => ([], t)

/-- Reads an exponent, if one stands here. -/
def readExponent (t : Text) : Option Int × Text :=
  match t with
  | e :: r =>
    if e = 'e' || e = 'E' then
      let (negative, r) := match r with
        | '-' :: r => (true, r)
        | '+' :: r => (false, r)
        | r => (false, r)
      match spanDigits r with
      | ([], _) => (none, t)
      | (ds, r) => (some (if negative then -(digitsValue ds : Int) else digitsValue ds), r)
    else (none, t)
  | [] => (none, t)

/-- Why a text is not read. -/
inductive Error where
  | malformed
  /-- A whole number has that many digits. -/
  | tooManyDigits (count : Nat)
  /-- Lists and records are nested too deeply; what cannot be opened is a list or not. -/
  | tooDeep (isList : Bool)
  deriving DecidableEq, Repr

/-- Where a malformed text is told by `none`. -/
def orMalformed {α : Type} (a : Option α) : Except Error α := a.elim (.error .malformed) .ok

/-- Reads a number at the front. -/
def readNumber (t : Text) : Except Error (Value × Text) :=
  let (negative, r) := match t with
    | '-' :: r => (true, r)
    | r => (false, r)
  let (whole, r) := match r with
    | '0' :: r => (['0'], r)
    | r => spanDigits r
  if whole.isEmpty then .error .malformed
  else
    let (fraction, r) := readFraction r
    let (exponent, r) := readExponent r
    if fraction.isEmpty && exponent.isNone then
      if Text.maxDigits < whole.length then .error (.tooManyDigits whole.length)
      else
        let n := digitsValue whole
        .ok (.int (if negative then -(n : Int) else n), r)
    else
      let e := exponent.getD 0 - fraction.length
      .ok (.real (Real.ofDecimal negative (digitsValue (whole ++ fraction)) e), r)

/-- What follows the word, if the text begins with it. -/
def word? (w : String) (t : Text) : Option Text :=
  if w.toList.isPrefixOf t then some (t.drop w.toList.length) else none

/-- The words that stand for values. -/
def words : List (String × Value) :=
  [("null", .null), ("true", .bool true), ("false", .bool false), ("NaN", .real .undefined),
   ("Infinity", .real (.infinite false)), ("-Infinity", .real (.infinite true))]

/-- How many lists and records may be open at once. -/
def maxDepth : Nat := 987

mutual

/-- Reads a value at the front, inside `depth` lists and records. -/
def readValue (depth : Nat) : (fuel : Nat) → Text → Except Error (Value × Text)
  | 0, _ => .error .malformed
  | fuel + 1, t =>
    match t with
    | '"' :: r => (orMalformed (readText r)).map fun (body, r) => (body.elim .brokenText .text, r)
    | '[' :: r =>
      if maxDepth ≤ depth then .error (.tooDeep true)
      else match skipSpace r with
        | ']' :: r => .ok (.list [], r)
        | r => (readItems (depth + 1) fuel r).map fun (vs, r) => (.list vs, r)
    | '{' :: r =>
      if maxDepth ≤ depth then .error (.tooDeep false)
      else match skipSpace r with
        | '}' :: r => .ok (.record [], r)
        | r => (readFields (depth + 1) fuel r).map fun (fs, r) => (.record fs, r)
    | t =>
      match words.findSome? fun (w, v) => (word? w t).map (v, ·) with
      | some r => .ok r
      | none => readNumber t

/-- Reads the items of a list up to its end. -/
def readItems (depth : Nat) : (fuel : Nat) → Text → Except Error (List Value × Text)
  | 0, _ => .error .malformed
  | fuel + 1, t => do
    let (v, r) ← readValue depth fuel t
    match skipSpace r with
    | ',' :: r => do
      let (vs, r) ← readItems depth fuel (skipSpace r)
      return (v :: vs, r)
    | ']' :: r => return ([v], r)
    | _ => .error .malformed

/-- Reads the fields of a record up to its end. -/
def readFields (depth : Nat) : (fuel : Nat) → Text → Except Error (List (Value × Value) × Text)
  | 0, _ => .error .malformed
  | fuel + 1, t =>
    match t with
    | '"' :: r => do
      let (name, r) ← orMalformed (readText r)
      match skipSpace r with
      | ':' :: r => do
        let (v, r) ← readValue depth fuel (skipSpace r)
        let field := (name.elim .brokenText .text, v)
        match skipSpace r with
        | ',' :: r => do
          let (fs, r) ← readFields depth fuel (skipSpace r)
          return (field :: fs, r)
        | '}' :: r => return ([field], r)
        | _ => .error .malformed
      | _ => .error .malformed
    | _ => .error .malformed

end

/-- The value that a JSON text spells. -/
def read (t : Text) : Except Error Value := do
  let (v, r) ← readValue 0 (t.length + 1) (skipSpace t)
  match skipSpace r with
  | [] => return v
  | _ => .error .malformed

end Emend.Json
