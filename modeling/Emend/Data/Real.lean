import Emend.Text.Basic

/-!
# Real numbers in data files

A number with a decimal point or an exponent is read as the nearest binary number with a significand
of 53 bits, ties going to the even significand. It is kept exactly, as a significand and a power of
two, so whether it is whole and how it splits into whole and fraction are questions of arithmetic.
-/

namespace Emend

/-- A binary number of double precision. -/
inductive Real where
  | finite (significand : Int) (exponent : Int)
  | infinite (negative : Bool)
  | undefined
  deriving DecidableEq, Repr

namespace Real

/-- The quotient rounded to the nearest whole number, a half to the even one. -/
def roundDiv (num den : Nat) : Nat :=
  let q := num / den
  let r := num % den
  if 2 * r < den then q
  else if den < 2 * r then q + 1
  else if q % 2 = 0 then q else q + 1

/-- `base ^ e` as a fraction. -/
def power (base : Nat) (e : Int) : Nat × Nat :=
  match e with
  | .ofNat n => (Nat.pow base n, 1)
  | .negSucc n => (1, Nat.pow base (n + 1))

/-- The fraction divided by `2 ^ e` and rounded. -/
def scaled (num den : Nat) (e : Int) : Nat :=
  let (up, down) := power 2 e
  roundDiv (num * down) (den * up)

/-- The nearest number to a positive fraction: its significand has 53 bits at most. -/
def ofFraction (negative : Bool) (num den : Nat) : Real :=
  let estimate : Int := (num.log2 : Int) - den.log2 - 52
  let fits (e : Int) : Bool := scaled num den e < 0x20000000000000
  let e := max (-1074) (if fits (estimate - 1) then estimate - 1 else if fits estimate then estimate
    else estimate + 1)
  let n := scaled num den e
  if (1024 : Int) ≤ (n.log2 : Int) + e then infinite negative
  else finite (if negative then -n else n) e

/-- The nearest number to `m · 10 ^ e`, where `m` has a sign of its own. -/
def ofDecimal (negative : Bool) (m : Nat) (e : Int) : Real :=
  let digits : Int := (Nat.toDigits 10 m).length
  if m = 0 || digits + e < -400 then finite 0 0
  else if 400 < digits + e then infinite negative
  else
    let (up, down) := power 10 e
    ofFraction negative (m * up) down

/-- The nearest number to a fraction of any sign. -/
def ofRatio (num : Int) (den : Nat) : Real :=
  if num = 0 then finite 0 0 else ofFraction (num < 0) num.natAbs den

/-- The nearest number to a whole number. -/
def ofInt (i : Int) : Real := ofRatio i 1

/-- The number as a whole number divided by a power of two. -/
def fraction? : Real → Option (Int × Nat)
  | finite m e =>
    let (up, down) := power 2 e
    some (m * up, down)
  | _ => none

/-- The whole number that this number is, if it is one. -/
def whole? (r : Real) : Option Int :=
  r.fraction?.bind fun (num, den) => if num % den = 0 then some (num / den) else none

/-- The number with the other sign. -/
def neg : Real → Real
  | finite m e => finite (-m) e
  | infinite negative => infinite !negative
  | undefined => undefined

/-- The sum, rounded. -/
def add (a b : Real) : Real :=
  match a.fraction?, b.fraction? with
  | some (m, d), some (n, e) => ofRatio (m * e + n * d) (d * e)
  | some _, none => b
  | none, some _ => a
  | none, none => if a = b then a else undefined

/-- The product with a positive number, rounded. -/
def scale (a : Real) (n : Nat) : Real :=
  match a.fraction?, (ofInt n).fraction? with
  | some (m, d), some (k, e) => ofRatio (m * k) (d * e)
  | _, _ => a

/-- The number is neither infinite nor undefined. -/
def isFinite : Real → Bool
  | finite _ _ => true
  | _ => false

example : ofDecimal false 50 (-1) = finite 5629499534213120 (-50) := by decide
example : (ofDecimal false 50 (-1)).whole? = some 5 := by decide
example : (ofDecimal true 25 (-1)).whole? = none := by decide

end Real

end Emend
