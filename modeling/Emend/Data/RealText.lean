import Emend.Data.Real
import Emend.Text.Integer

/-!
# Real numbers in texts

A real number may stand between blanks and have a sign. It has digits of any script, a point somewhere
among them, and an exponent behind them; or it is one of the words for infinity and for no number.
-/

namespace Emend.Real

/-- The exponent that a text spells, with its letter; an empty text is the exponent zero. -/
def exponent? : Text → Option Int
  | [] => some 0
  | e :: t =>
    if e = 'e' || e = 'E' then
      let (isNegative, ds) := Text.signed t
      (Text.decimalDigits? ds).map (Text.withSign isNegative)
    else none

/-- The number that digits spell, with a point and an exponent or without. Digits may be absent on one
side of the point. -/
def ofDigits? (isNegative : Bool) (t : Text) : Option Real :=
  let isDigit (c : Char) : Bool := (Text.decimalDigit? c).isSome
  let whole := t.takeWhile isDigit
  let (fraction, rest) := match t.drop whole.length with
    | '.' :: r => r.span isDigit
    | r => ([], r)
  do
    let n ← Text.decimalDigits? (whole ++ fraction)
    let e ← exponent? rest
    return ofDecimal isNegative n (e - fraction.length)

/-- The words for numbers that have no digits, in lower case. -/
def words : List (String × Real) :=
  [("inf", infinite false), ("infinity", infinite false), ("nan", undefined)]

/-- The real number that a text spells. -/
def ofText? (t : Text) : Option Real :=
  let (isNegative, t) := Text.signed (Text.withoutMargins t)
  match words.find? (·.1.toList = t.map Char.toLower) with
  | some (_, r) => some (if isNegative then r.neg else r)
  | none => ofDigits? isNegative t

end Emend.Real
