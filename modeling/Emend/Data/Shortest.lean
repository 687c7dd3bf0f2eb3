import Emend.Data.Real
import Emend.Text.Digits

/-!
# The shortest text of a real number

A real number is written with as few decimal digits as read back as the same number, and of the decimal
numbers of that length the nearest is taken. What reads back are the numbers between the halves of the
steps to the two neighbours; the halves themselves do if the significand is even.

Digits stand around a point as long as the number is not below `0.0001` and not from `10 ^ 16` on; beyond,
an exponent of two digits at least follows.
-/

namespace Emend.Real

/-- The numbers around a real number that are nearer to it than to its neighbours, in units of a quarter of
the step to the next number. -/
structure Vicinity where
  low : Nat
  middle : Nat
  high : Nat
  /-- The two ends count. -/
  isClosed : Bool
  /-- The exponent of the unit, in powers of two. -/
  unit : Int

/-- The vicinity of `n · 2 ^ e`. Below a power of two the numbers lie twice as close. -/
def vicinity (n : Nat) (e : Int) : Vicinity :=
  let step := max (-1074) (e + n.log2 - 52)
  let n := n * Nat.pow 2 (e - step).toNat
  let isFirst := n = 0x10000000000000 && step != -1074
  { low := 4 * n - (if isFirst then 1 else 2), middle := 4 * n, high := 4 * n + 2,
    isClosed := n % 2 = 0, unit := step - 2 }

/-- The decimal numbers `d · 10 ^ e` that lie in a vicinity, of the two next to its middle; the nearer one
first, and of two that are as near the even one. -/
def Vicinity.candidates (v : Vicinity) (e : Int) : List Nat :=
  let (up, down) := power 2 v.unit
  let (tenUp, tenDown) := power 10 e
  let scale := tenUp * down
  let inUnits (n : Nat) : Nat := n * up * tenDown
  let below := inUnits v.middle / scale
  let covers (d : Nat) : Bool :=
    if v.isClosed then inUnits v.low ≤ d * scale && d * scale ≤ inUnits v.high
    else inUnits v.low < d * scale && d * scale < inUnits v.high
  let nearest := roundDiv (inUnits v.middle) scale
  let other := if nearest = below then below + 1 else below
  [nearest, other].filter covers

/-- The digits of the shortest decimal number that reads back, and its exponent: the number is
`d · 10 ^ e`. The exponents are tried downwards from `e`; seventeen digits always do. -/
def shortestFrom (v : Vicinity) : (count : Nat) → (e : Int) → Nat × Int
  | 0, e => ((v.candidates e).headD 0, e)
  | count + 1, e =>
    match v.candidates e with
    | d :: _ => (d, e)
    | [] => shortestFrom v count (e - 1)

/-- The digits of a positive number and how many of them stand before the point. -/
def shortest (n : Nat) (e : Int) : Text × Int :=
  let v := vicinity n e
  let (num, den) := power 2 e
  let magnitude : Int := (Nat.toDigits 10 (n * num / den)).length
  let leading : Int := (Nat.toDigits 10 (den / (n * num) + 1)).length
  let top := if n * num < den then 1 - leading + 1 else magnitude
  let (d, e) := shortestFrom v 20 top
  let digits := Nat.toDigits 10 d
  let kept := (digits.reverse.dropWhile (· = '0')).reverse
  (kept, e + digits.length)

/-- Digits as a number, `point` of them before the point. -/
def written (digits : Text) (point : Int) : Text :=
  let zeros (n : Int) : Text := List.replicate n.toNat '0'
  if point < -3 ∨ 16 < point then
    let e := point - 1
    digits.take 1 ++ (if digits.length = 1 then [] else '.' :: digits.drop 1) ++
      ['e', if e < 0 then '-' else '+'] ++ Text.decimal 2 e.natAbs
  else if point ≤ 0 then "0.".toList ++ zeros (-point) ++ digits
  else if digits.length ≤ point then digits ++ zeros (point - digits.length) ++ ".0".toList
  else digits.take point.toNat ++ '.' :: digits.drop point.toNat

/-- The words for infinity and for no number. -/
structure Words where
  infinity : String
  undefined : String

/-- The number as a text. -/
def toText (w : Words) : Real → Text
  | finite m e =>
    (if m < 0 then ['-'] else []) ++
      (if m = 0 then "0.0".toList else written (shortest m.natAbs e).1 (shortest m.natAbs e).2)
  | infinite isNegative => (if isNegative then ['-'] else []) ++ w.infinity.toList
  | undefined => w.undefined.toList

example : toText ⟨"inf", "nan"⟩ (ofDecimal false 1 (-1)) = "0.1".toList := by decide
example : toText ⟨"inf", "nan"⟩ (ofDecimal true 5 (-324)) = "-5e-324".toList := by decide +kernel
example : toText ⟨"inf", "nan"⟩ (ofDecimal false 1 16) = "1e+16".toList := by decide

end Emend.Real
