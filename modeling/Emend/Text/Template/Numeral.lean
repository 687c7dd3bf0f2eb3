import Emend.Data.Real
import Emend.Text.Digits

/-!
# Numerals

A whole number can be shown in several bases, and as a real number with a point or an exponent. A
`Numeral` keeps apart what a layout treats apart: the sign of the base, the digits that may be grouped, and
what follows these.

Real numbers are rounded to 53 bits first. The decimal digits are then those of the nearest decimal number
of the length that is asked for, a half going to the even digit.
-/

namespace Emend.Template

/-- A number as it is shown. -/
structure Numeral where
  /-- The sign of the base. -/
  base : Text := []
  digits : Text
  /-- The point and the digits behind it, the exponent, and a percent sign. -/
  rest : Text := []
  deriving DecidableEq, Repr

namespace Numeral

/-- A whole number in a base; the sign of the base is put in front if asked for. -/
def ofWhole (base : Nat) (letter : Char) (isMarked : Bool) (n : Nat) : Numeral :=
  { base := if isMarked then ['0', letter] else [], digits := Nat.toDigits base n }

/-- The digits of a whole number, at most `count` of them, rounded, and how many stand before the point. -/
def significant (count n : Nat) : Text × Nat :=
  let digits := Nat.toDigits 10 n
  if digits.length ≤ count then (digits, digits.length)
  else
    let unit := Nat.pow 10 (digits.length - count)
    let rounded := Real.roundDiv n unit
    let length := (Nat.toDigits 10 (rounded * unit)).length
    ((Nat.toDigits 10 rounded).take count, length)

/-- The text without zeros at its end. -/
def withoutZeros (t : Text) : Text := (t.reverse.dropWhile (· = '0')).reverse

/-- The text with zeros behind it, to a length. -/
def padEnd (length : Nat) (t : Text) : Text := t ++ List.replicate (length - t.length) '0'

/-- The digits behind the point, with the point if there are any or it is asked for. -/
def fraction (keepsPoint : Bool) (t : Text) : Text := if t.isEmpty && !keepsPoint then [] else '.' :: t

/-- An exponent has two digits at least. -/
def exponent (letter : Char) (e : Nat) : Text := letter :: '+' :: Text.decimal 2 e

/-- The number with so many digits behind the point. -/
def fixed (precision : Nat) (keepsPoint : Bool) (n : Nat) : Numeral :=
  { digits := Nat.toDigits 10 n, rest := fraction keepsPoint (List.replicate precision '0') }

/-- Digits with an exponent, one of them before the point. -/
def scientific (letter : Char) (keepsPoint : Bool) (digits : Text) (length : Nat) : Numeral :=
  { digits := digits.take 1, rest := fraction keepsPoint (digits.drop 1) ++ exponent letter (length - 1) }

/-- The number with one digit before the point, so many behind it, and an exponent. -/
def withExponent (letter : Char) (precision : Nat) (keepsPoint : Bool) (n : Nat) : Numeral :=
  let (digits, length) := significant (precision + 1) n
  scientific letter keepsPoint (padEnd (precision + 1) digits) length

/-- The number with so many digits in all, with an exponent only where it has more before the point.
Zeros at the end are shown if asked for. -/
def general (letter : Char) (precision : Nat) (keepsZeros : Bool) (n : Nat) : Numeral :=
  let count := max precision 1
  let (digits, length) := significant count n
  let digits := if keepsZeros then padEnd count digits else withoutZeros digits
  if count < length then scientific letter keepsZeros (padEnd 1 digits) length
  else
    let digits := padEnd length digits
    { digits := digits.take length, rest := fraction keepsZeros (digits.drop length) }

/-- The numeral in upper case. -/
def upper (l : Numeral) : Numeral :=
  { base := l.base.map Char.toUpper, digits := l.digits.map Char.toUpper, rest := l.rest.map Char.toUpper }

example : withExponent 'e' 0 false 65 = ⟨[], ['6'], "e+01".toList⟩ := by decide
example : general 'e' 1 false 35 = ⟨[], ['4'], "e+01".toList⟩ := by decide
example : general 'e' 3 true 5 = ⟨[], ['5'], ".00".toList⟩ := by decide

end Numeral

/-- The whole number as a real number, multiplied by `factor`. Both are rounded, which leaves them whole. -/
def nearestWhole (factor n : Nat) : Nat := ((Real.ofInt n).scale factor).whole?.elim 0 Int.toNat

/-- Groups digits from the right, `size` in each, until there are none left and the `width` is reached with
zeros and the characters between the groups. `fuel` bounds the number of groups. -/
def groups (size : Nat) : (fuel : Nat) → (width : Int) → (reversed : Text) → List Text
  | 0, _, _ => []
  | fuel + 1, width, reversed =>
    let length := min size (max (max reversed.length width.toNat) 1)
    let group := (Numeral.padEnd length (reversed.take length)).reverse
    let rest := reversed.drop length
    let left := width - length
    if rest.isEmpty && left ≤ 0 then [group] else group :: groups size fuel (left - 1) rest

/-- Digits in groups with `separator` between them. -/
def grouped (size : Nat) (separator : Char) (width : Int) (digits : Text) : Text :=
  Text.joinWith [separator] (groups size (digits.length + width.toNat + 1) width digits.reverse).reverse

example : grouped 3 ',' 10 "1234".toList = "00,001,234".toList := by decide

end Emend.Template
