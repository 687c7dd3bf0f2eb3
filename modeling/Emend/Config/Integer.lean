import Emend.Data.Field
import Emend.Text.Blank
import Emend.Text.Digits

/-!
# Whole numbers in settings

A whole number is given as such or as anything that plainly stands for one: a truth value, a real
number without a fraction, or a text. A text is first read as it stands, in the plain form of `plainInt`.
If that fails it is tidied (`tidied`): blanks, a plus sign, zeros in front, a fraction of zeros and
single underscores go, and the rest is read again in the plain form.
-/

namespace Emend.Config

/-- The most characters, with its sign, that a whole number is read from. -/
def maxIntLength : Nat := 4300

/-- The whole number that a text spells in plain form: a minus sign or none, then digits without a zero
in front of others. A text that begins with too many of them is refused whatever follows. -/
def plainInt (t : Text) : Except Fault Int :=
  let (isNegative, digits) := match t with
    | '-' :: r => (true, r)
    | r => (false, r)
  match digits.takeWhile Char.isDigit with
  | [] => .error .notIntText
  | '0' :: _ => if digits = ['0'] then .ok 0 else .error .notIntText
  | run =>
    if maxIntLength < run.length + (if isNegative then 1 else 0) then .error .intTooLong
    else if run.length < digits.length then .error .notIntText
    else match Text.digits? 10 run with
      | some n => .ok (if isNegative then -(n : Int) else n)
      | none => .error .notIntText

/-- Removes a plus sign, which must not stand before a minus sign. -/
def withoutPlus : Text → Option Text
  | '+' :: '-' :: _ => none
  | '+' :: t => some t
  | t => some t

/-- What remains behind a zero when more zeros and underscores are removed: `last` is the character
removed last, which stands for the number if nothing else does. -/
def behindZeros (last : Char) : Text → Option Text
  | [] => some [last]
  | c :: t =>
    if c = '0' || c = '_' then behindZeros c t
    else if c.isDigit || c = '-' then some (c :: t)
    else if c = '.' then some (last :: c :: t)
    else none

/-- Removes zeros in front of a number. -/
def withoutZeros : Text → Option Text
  | [] => none
  | c :: t =>
    if c = '0' then behindZeros c t
    else if c.isDigit || c = '-' then some (c :: t)
    else none

/-- Removes a fraction that consists of one zero or more. -/
def withoutFraction (t : Text) : Text :=
  match (t.dropWhile (· != '.')).drop 1 with
  | [] => t
  | fraction => if fraction.all (· = '0') then t.takeWhile (· != '.') else t

/-- Two underscores stand side by side. -/
def hasDoubleUnderscore : Text → Bool
  | '_' :: '_' :: _ => true
  | _ :: t => hasDoubleUnderscore t
  | [] => false

/-- Removes underscores, if all of them stand alone between other characters. -/
def withoutUnderscores (t : Text) : Text :=
  if t.head? = some '_' || t.getLast? = some '_' || hasDoubleUnderscore t then t
  else t.filter (· != '_')

/-- Tidies a number without a sign. -/
def tidiedDigits (t : Text) : Option Text :=
  (withoutZeros t).map fun t => withoutUnderscores (withoutFraction t)

/-- The text with all removed that a whole number may have about it. A minus sign stays. -/
def tidied (t : Text) : Option Text := do
  match ← withoutPlus (Text.withoutMargins t) with
  | '-' :: t => (tidiedDigits t).map ('-' :: ·)
  | t => tidiedDigits t

/-- The whole number that a text spells. Only a text that needs no tidying is called too long. -/
def readInt (t : Text) : Except Fault Int :=
  match plainInt t with
  | .error .notIntText =>
    match (tidied t).bind fun t => (plainInt t).toOption with
    | some i => .ok i
    | none => .error .notIntText
  | r => r

/-- The bound of the whole numbers of 64 bits. -/
def wordBound : Int := 0x8000000000000000

/-- A real number without a fraction, as a whole number of 64 bits. -/
def wholeOfReal (r : Real) : Except Fault Int :=
  if !r.isFinite then .error .notFinite
  else match r.whole? with
    | none => .error .notWhole
    | some i => if -wordBound < i ∧ i < wordBound then .ok i else .error .intTooLong

/-- A whole number, read leniently. -/
def checkInt : Value → Except Fault Int
  | .int i => .ok i
  | .bool b => .ok (if b then 1 else 0)
  | .text t => readInt t
  | .binary bs => match Utf8.decode bs with
    | .ok t => readInt t
    | .error _ => .error .notIntText
  | .real r => wholeOfReal r
  | .brokenText => .error .badUnicode
  | _ => .error .notInt

/-- A whole number that is not negative. -/
def checkCount (v : Value) : Except Fault Nat := do
  match ← checkInt v with
  | .ofNat n => .ok n
  | .negSucc _ => .error .tooSmall

end Emend.Config
