import Emend.Text.Blank
import Emend.Text.Digits

/-!
# Whole numbers in texts

A whole number may stand between blanks and have a sign; single underscores may group its digits.
-/

namespace Emend.Text

/-- Removes underscores; `none` if one stands at the end or before another one. -/
def dropUnderscores : Text → Option Text
  | [] => some []
  | ['_'] => none
  | '_' :: '_' :: _ => none
  | c :: t => (dropUnderscores t).map fun r => if c = '_' then r else c :: r

/-- Removes underscores between other characters; `none` if one stands elsewhere. -/
def ungroup? (t : Text) : Option Text := if t.head? = some '_' then none else dropUnderscores t

/-- The text behind its sign, and whether that is a minus. -/
def signed : Text → Bool × Text
  | '-' :: t => (true, t)
  | '+' :: t => (false, t)
  | t => (false, t)

/-- The number with a sign. -/
def withSign (isNegative : Bool) (n : Nat) : Int := if isNegative then -(n : Int) else n

/-- The most digits that a number is read from. -/
def maxDigits : Nat := 4300

/-- What is said of a number with more digits than that. -/
def tooManyDigits (count : Nat) : Text :=
  "Exceeds the limit (".toList ++ ofNat maxDigits ++
    " digits) for integer string conversion: value has ".toList ++ ofNat count ++
    " digits; use sys.set_int_max_str_digits() to increase the limit".toList

/-- Why a text spells no whole number. -/
inductive IntFault where
  | notANumber
  | tooManyDigits (count : Nat)
  deriving DecidableEq, Repr

/-- The value of a digit in a base: a decimal digit of any script, or a letter behind nine. -/
def digitIn? (base : Nat) (c : Char) : Option Nat :=
  ((decimalDigit? c).or (hexDigit? c)).filter (· < base)

/-- The number that digits spell in a base; `none` if there is none or something else. -/
def numberIn? (base : Nat) (t : Text) : Option Nat :=
  if t.isEmpty then none
  else t.foldlM (fun n c => (digitIn? base c).map (n * base + ·)) 0

/-- The letters that may stand behind a zero in front of the digits of a base. -/
def baseLetters (base : Nat) : List Char :=
  match base with
  | 2 => ['b', 'B']
  | 8 => ['o', 'O']
  | 16 => ['x', 'X']
  | _ => []

/-- Removes a zero with the letter of the base, if both stand here. -/
def withoutBase (base : Nat) : Text → Text
  | z :: c :: t =>
    if decimalDigit? z = some 0 && (baseLetters base).contains c then t else z :: c :: t
  | t => t

/-- The number of digits in a base at the front, underscores between them not counted. -/
def countDigits (base : Nat) (t : Text) : Nat :=
  ((t.takeWhile fun c => c = '_' || (digitIn? base c).isSome).filter (· != '_')).length

/-- The bases in which a number may have any length. -/
def isFreeBase (base : Nat) : Bool := base = 2 || base = 8 || base = 16

/-- The whole number that a text spells in a base. -/
def intIn (base : Nat) (t : Text) : Except IntFault Int :=
  let (isNegative, t) := signed (withoutMargins t)
  let t := withoutBase base t
  let count := countDigits base t
  if maxDigits < count && !isFreeBase base then .error (.tooManyDigits count)
  else match (ungroup? t).bind (numberIn? base) with
    | some n => .ok (withSign isNegative n)
    | none => .error .notANumber

/-- The whole number that a text spells in decimal digits of any script. -/
def int? (t : Text) : Option Int := (intIn 10 t).toOption

example : int? " -1_0 ".toList = some (-10) ∧ int? "_1".toList = none ∧ int? "1__0".toList = none := by
  decide

end Emend.Text
