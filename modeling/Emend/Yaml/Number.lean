import Emend.Data.RealText
import Emend.Yaml.Error

/-!
# Numbers of YAML

Whole numbers can be written in base two, eight, ten and sixteen, and both kinds of numbers in base
sixty with colons between the digits. `isIntForm` and `isRealForm` say which plain scalars are numbers;
`intOf` and `realOf` answer the number of a scalar that is one or is declared as one. What is declared
as a number may be written in more ways than what is taken for one.
-/

namespace Emend.Yaml

/-! ## The forms of plain scalars -/

/-- Digits and underscores, a digit first. -/
def isSpacedDigits : Text → Bool
  | [] => false
  | c :: t => c.isDigit && t.all fun d => d.isDigit || d = '_'

/-- A digit of a number in base sixty behind the first. -/
def isSixtieth : Text → Bool
  | [d] => d.isDigit
  | [t, d] => '0' ≤ t && t ≤ '5' && d.isDigit
  | _ => false

/-- The text is a whole number in base sixty with more than one digit. -/
def isSexagesimal (first : Text → Bool) (t : Text) : Bool :=
  match Text.splitOn ':' t with
  | d :: e :: ds => first d && (e :: ds).all isSixtieth
  | _ => false

/-- The characters behind `lead` are some, and all of those. -/
def isMadeOf (lead : String) (p : Char → Bool) (t : Text) : Bool :=
  lead.toList.isPrefixOf t && lead.length < t.length && (t.drop lead.length).all p

/-- The text has the form of a whole number. -/
def isIntForm (t : Text) : Bool :=
  let t := (Text.signed t).2
  let startsAboveZero (t : Text) : Bool := isSpacedDigits t && t.head? != some '0'
  t == ['0'] || startsAboveZero t ||
    isMadeOf "0b" (fun c => c = '0' || c = '1' || c = '_') t ||
    isMadeOf "0" (fun c => ('0' ≤ c && c ≤ '7') || c = '_') t ||
    isMadeOf "0x" (fun c => (Text.hexDigit? c).isSome || c = '_') t ||
    isSexagesimal startsAboveZero t

/-- The text is empty or an exponent with a sign. -/
def isExponentForm : Text → Bool
  | [] => true
  | e :: s :: ds => (e = 'e' || e = 'E') && (s = '+' || s = '-') && !ds.isEmpty && ds.all Char.isDigit
  | _ => false

/-- The text has the form of a real number. -/
def isRealForm (t : Text) : Bool :=
  let body := (Text.signed t).2
  let whole := body.takeWhile (· != '.')
  let spaced (c : Char) : Bool := c.isDigit || c = '_'
  match body.drop whole.length with
  | [] => false
  | _ :: fraction =>
    let digits := fraction.takeWhile spaced
    let rest := fraction.drop digits.length
    (isSpacedDigits whole && isExponentForm rest) ||
      (isSexagesimal isSpacedDigits whole && rest.isEmpty) ||
      (whole.isEmpty && t == body && isSpacedDigits digits && isExponentForm rest) ||
      (whole.isEmpty && ["inf", "Inf", "INF"].any (·.toList = fraction)) ||
      (whole.isEmpty && t == body && ["nan", "NaN", "NAN"].any (·.toList = fraction))

/-! ## The values of scalars -/

/-- The number that digits in base sixty spell. -/
def sexagesimal (ds : List Int) : Int := ds.foldl (fun n d => n * 60 + d) 0

/-- The number that a scalar spells behind its sign. -/
def unsignedInt (t : Text.Points) : Except Error Int :=
  match t.shape with
  | [] => .error (.scalar .emptyNumber)
  | ['0'] => .ok 0
  | '0' :: 'b' :: _ => wholeIn 2 (t.drop 2)
  | '0' :: 'x' :: _ => wholeIn 16 (t.drop 2)
  | '0' :: _ => wholeIn 8 t
  | _ =>
    if t.contains (.char ':') then sexagesimal <$> (Text.splitOn (.char ':') t).mapM (wholeIn 10)
    else wholeIn 10 t

/-- The scalar without underscores, which mean nothing in a number. -/
def withoutUnderscores (t : Text.Points) : Text.Points := t.filter (· != .char '_')

/-- The sign of a scalar and what follows it. -/
def signOf : Text.Points → Except Error (Bool × Text.Points)
  | [] => .error (.scalar .emptyNumber)
  | .char '-' :: t => .ok (true, t)
  | .char '+' :: t => .ok (false, t)
  | t => .ok (false, t)

/-- The whole number that a scalar spells. -/
def intOf (t : Text.Points) : Except Error Int := do
  let (isNegative, t) ← signOf (withoutUnderscores t)
  let n ← unsignedInt t
  return if isNegative then -n else n

/-- The real number that a text spells, which says that it does not if it does not. -/
def realIn (t : Text.Points) : Except Error Real :=
  match Real.ofText? t.shape with
  | some r => .ok r
  | none => .error (.bad ("could not convert string to float: ".toList ++ t.quoted))

/-- The real number of digits in base sixty, the last one first, each of which counts `unit`. -/
def realSum (unit : Nat) (sum : Real) : List Real → Except Error Real
  | [] => .ok sum
  | d :: ds =>
    if (Real.ofInt unit).isFinite then realSum (unit * 60) (sum.add (d.scale unit)) ds
    else .error (.scalar (.overflow "int too large to convert to float".toList))

/-- The real number that a scalar spells. -/
def realOf (t : Text.Points) : Except Error Real := do
  let (isNegative, t) ← signOf (withoutUnderscores t).lower
  let r ← if t.shape = ".inf".toList then pure (.infinite false)
    else if t.shape = ".nan".toList then pure .undefined
    else if t.contains (.char ':') then do
      realSum 1 (.finite 0 0) (← (Text.splitOn (.char ':') t).mapM realIn).reverse
    else realIn t
  return if isNegative then r.neg else r

end Emend.Yaml
