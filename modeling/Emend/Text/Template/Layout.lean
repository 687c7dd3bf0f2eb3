import Emend.Text.Template.Error
import Emend.Text.Template.Numeral

/-!
# Layouts

A layout says how a text or a number is shown: fill and alignment, sign, least width, how digits are
grouped, the greatest length of a text or the number of digits of a number, and the type that tells what
the number is shown as. All other subjects know the empty layout only.
-/

namespace Emend.Template

/-- How a text or a number is laid out. -/
structure Layout where
  fill : Char := ' '
  align : Option Char := none
  sign : Option Char := none
  coerced : Bool := false
  alternate : Bool := false
  width : Nat := 0
  separator : Option Char := none
  precision : Option Nat := none
  type : Char
  deriving Repr

/-! ## Reading layouts -/

/-- The character says how a text is aligned. -/
def isAlignment (c : Char) : Bool := c = '<' || c = '>' || c = '^' || c = '='

/-- Reads fill and alignment: them, whether a fill was given, and what follows. -/
def readAlignment (l : Layout) : Text → Layout × Bool × Text
  | f :: a :: t =>
    if isAlignment a then ({ l with fill := f, align := some a }, true, t)
    else if isAlignment f then ({ l with align := some f }, false, a :: t)
    else (l, false, f :: a :: t)
  | [a] => if isAlignment a then ({ l with align := some a }, false, []) else (l, false, [a])
  | [] => (l, false, [])

/-- What follows `c` if the text begins with it. -/
def char? (c : Char) : Text → Option Text
  | [] => none
  | d :: t => if c = d then some t else none

/-- The character is a decimal digit of some script. -/
def isDecimal (c : Char) : Bool := (Text.decimalDigit? c).isSome

/-- Reads a number at the front, if there is one. -/
def readNumber (t : Text) : Except Error (Option Nat × Text) := do
  return (← number? (t.takeWhile isDecimal), t.dropWhile isDecimal)

/-- Reads the sign and the flags. A zero fills, and it fills a number behind its sign unless the alignment
says otherwise. -/
def readFlags (isNumber : Bool) (l : Layout) (filled : Bool) (t : Text) : Layout × Text :=
  let (l, t) := match t with
    | c :: r => if c = ' ' || c = '+' || c = '-' then ({ l with sign := some c }, r) else (l, t)
    | [] => (l, t)
  let (l, t) := match char? 'z' t with
    | some r => ({ l with coerced := true }, r)
    | none => (l, t)
  let (l, t) := match char? '#' t with
    | some r => ({ l with alternate := true }, r)
    | none => (l, t)
  if filled then (l, t)
  else match char? '0' t with
    | some r => ({ l with fill := '0', align := l.align.or (if isNumber then some '=' else none) }, r)
    | none => (l, t)

/-- Reads the separator of thousands. -/
def readSeparator (l : Layout) (t : Text) : Except Error (Layout × Text) :=
  let clash : Error := .malformed "Cannot specify both ',' and '_'."
  match t with
  | ',' :: '_' :: _ => .error clash
  | '_' :: ',' :: _ => .error clash
  | ',' :: r => .ok ({ l with separator := some ',' }, r)
  | '_' :: r => .ok ({ l with separator := some '_' }, r)
  | _ => .ok (l, t)

/-- Reads the greatest length. -/
def readPrecision (l : Layout) (t : Text) : Except Error (Layout × Text) :=
  match t with
  | '.' :: r => do
    match ← readNumber r with
    | (none, _) => .error (.malformed "Format specifier missing precision")
    | (some n, r) => return ({ l with precision := some n }, r)
  | _ => .ok (l, t)

/-- The types that show a number in a base other than ten. -/
def isBaseType (c : Char) : Bool := c = 'b' || c = 'o' || c = 'x' || c = 'X'

/-- The types that show a number as a real number. -/
def isRealType (c : Char) : Bool := "eEfFgG%".toList.contains c

/-- The types with which a separator of thousands goes. -/
def takesSeparator (separator type : Char) : Bool :=
  type == '\x00' || type == 'd' || isRealType type || (separator == '_' && isBaseType type)

/-- The layout that a text spells, for a text or a thing of another kind, which is a number. -/
def parseLayout (k : Kind) (spelled : Text) : Except Error Layout := do
  let isNumber := decide (k ≠ .text)
  let (l, filled, t) := readAlignment { type := if isNumber then 'd' else 's' } spelled
  let (l, t) := readFlags isNumber l filled t
  let (width, t) ← readNumber t
  let (l, t) ← readSeparator { l with width := width.getD 0 } t
  let (l, t) ← readPrecision l t
  let l ← match t with
    | [] => pure l
    | [c] => pure { l with type := c }
    | _ => .error (.badLayout spelled k)
  match l.separator with
  | none => return l
  | some s =>
    if takesSeparator s l.type then return l
    else .error (.unknownType ("Cannot specify '" ++ s.toString ++ "' with '") l.type "'.")

/-! ## Laying out -/

namespace Layout

/-- Puts fill around a text up to the least width; `inner` is what stands before the fill that an equals
sign asks for. -/
def pad (l : Layout) (align : Char) (inner t : Text) : Text :=
  let space := l.width - (inner.length + t.length)
  let fill (n : Nat) : Text := List.replicate n l.fill
  match l.align.getD align with
  | '<' => inner ++ t ++ fill space
  | '^' => fill (space / 2) ++ inner ++ t ++ fill (space - space / 2)
  | '=' => inner ++ fill space ++ t
  | _ => fill space ++ inner ++ t

/-- The type is not one for things of that kind. -/
def refuseType (l : Layout) (k : Kind) : Error :=
  .unknownType "Unknown format code '" l.type ("' for object of type '" ++ k.fullName ++ "'")

/-- Lays out a text: cut to the greatest length, then filled up to the least width. -/
def apply (l : Layout) (t : Text) : Except Error Text :=
  if l.type != 's' then .error (l.refuseType .text)
  else if l.sign = some ' ' then
    .error (.malformed "Space not allowed in string format specifier")
  else if l.sign.isSome then
    .error (.malformed "Sign not allowed in string format specifier")
  else if l.coerced then
    .error (.malformed "Negative zero coercion (z) not allowed in string format specifier")
  else if l.alternate then
    .error (.malformed "Alternate form (#) not allowed in string format specifier")
  else if l.align = some '=' then
    .error (.malformed "'=' alignment not allowed in string format specifier")
  else .ok (l.pad '<' [] ((l.precision.map t.take).getD t))

/-- The sign that is shown before a number that is not negative. -/
def plus (l : Layout) : Text :=
  match l.sign with
  | some '+' => ['+']
  | some ' ' => [' ']
  | _ => []

/-- Lays out a numeral. Where zeros fill the space behind the sign, they are grouped with the digits. -/
def place (l : Layout) (n : Numeral) : Text :=
  let before := l.plus ++ n.base
  let width : Int :=
    if l.fill = '0' && l.align = some '=' then (l.width : Int) - (before.length + n.rest.length) else 0
  let digits := match l.separator with
    | none => Text.padStart (max width.toNat 1) '0' n.digits
    | some s => grouped (if isBaseType l.type then 4 else 3) s width n.digits
  l.pad '>' before ((if n.digits.isEmpty then [] else digits) ++ n.rest)

/-- A number as the character of that number. -/
def character (l : Layout) (n : Nat) : Except Error Numeral :=
  if l.sign.isSome then .error (.malformed "Sign not allowed with integer format specifier 'c'")
  else if l.alternate then
    .error (.malformed "Alternate form (#) not allowed with integer format specifier 'c'")
  else if 0x10FFFF < n then .error .noCharacter
  else .ok { digits := [], rest := [Char.ofNat n] }

/-- A whole number as the type says. -/
def whole (l : Layout) (n : Nat) : Except Error Numeral :=
  if l.precision.isSome then .error (.malformed "Precision not allowed in integer format specifier")
  else if l.coerced then
    .error (.malformed "Negative zero coercion (z) not allowed in integer format specifier")
  else match l.type with
    | 'c' => l.character n
    | 'b' => .ok (.ofWhole 2 'b' l.alternate n)
    | 'o' => .ok (.ofWhole 8 'o' l.alternate n)
    | 'x' => .ok (.ofWhole 16 'x' l.alternate n)
    | 'X' => .ok (Numeral.ofWhole 16 'x' l.alternate n).upper
    | _ => .ok (.ofWhole 10 'd' false n)

/-- The greatest number of digits behind the point. -/
def maxPrecision : Nat := 0x7FFFFFFF

/-- A whole number as a real number in the way that the type says. -/
def real (l : Layout) (n : Nat) : Except Error Numeral :=
  let precision := l.precision.getD 6
  let n' := nearestWhole 1 n
  if maxPrecision < precision then .error (.malformed "precision too big")
  else .ok <| match l.type with
    | 'e' => .withExponent 'e' precision l.alternate n'
    | 'E' => .withExponent 'E' precision l.alternate n'
    | 'g' => .general 'e' precision l.alternate n'
    | 'G' => .general 'E' precision l.alternate n'
    | '%' =>
      let shown := Numeral.fixed precision l.alternate (nearestWhole 100 n)
      { shown with rest := shown.rest ++ ['%'] }
    | _ => .fixed precision l.alternate n'

/-- Lays out a number, which may be the number of a truth value. -/
def applyNumber (l : Layout) (k : Kind) (n : Nat) : Except Error Text :=
  if l.type = 'c' || l.type = 'd' || l.type = 'n' || isBaseType l.type then l.place <$> l.whole n
  else if isRealType l.type then l.place <$> l.real n
  else .error (l.refuseType k)

end Layout

/-- Lays out a subject as the layout asks; all but texts and numbers know the empty layout only. -/
def layOut (s : Subject) (layout : Text) : Except Error Text :=
  if layout.isEmpty then .ok s.shown
  else match s with
    | .text t => do (← parseLayout .text layout).apply t
    | .number n => do (← parseLayout .number layout).applyNumber .number n
    | .truth b => do (← parseLayout .truth layout).applyNumber .truth b.toNat
    | s => .error (.subject (.noLayout s))

end Emend.Template
