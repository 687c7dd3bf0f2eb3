import Emend.Data.Field
import Emend.Text.Digits
import Emend.Time.Calendar

/-!
# Timestamps

A timestamp is what a clock on a wall shows, to the microsecond, and how far that clock is ahead of
universal time if this is known. Timestamps are written as date, `T`, time and offset. They are read
from such texts, from a date alone, and from a number of seconds or, beyond a bound, milliseconds since
the start of 1970, which is a timestamp of universal time. The calendar of these readers begins with the
year 0, but no timestamp lies in that year: what would is a fault of its own.
-/

namespace Emend

/-- A date and time of day. -/
structure Timestamp where
  /-- The microseconds since 1970 that the clock shows. -/
  wall : Int
  /-- The seconds by which the clock is ahead of universal time. -/
  offset : Option Int := none
  deriving DecidableEq, Repr

namespace Timestamp

/-- The microseconds in a second. -/
def micro : Int := 1000000

/-- The seconds in a day. -/
def daySeconds : Int := 86400

/-- The microseconds since 1970 in universal time, or on the clock if its offset is not known. -/
def instant (t : Timestamp) : Int := t.wall - t.offset.getD 0 * micro

/-- The date that the clock shows. -/
def date (t : Timestamp) : Date := Date.ofDays (t.wall / (daySeconds * micro))

/-- The seconds of the day that the clock shows. -/
def secondOfDay (t : Timestamp) : Nat := (t.wall / micro % daySeconds).toNat

/-- The microseconds beyond the second. -/
def fraction (t : Timestamp) : Nat := (t.wall % micro).toNat

/-! ## Writing -/

/-- Hours, minutes and seconds with `sep` between. -/
def clockText (sep : Text) (seconds : Nat) : Text :=
  Text.decimal 2 (seconds / 3600) ++ sep ++ Text.decimal 2 (seconds / 60 % 60) ++ sep ++
    Text.decimal 2 (seconds % 60)

/-- Year, month and day with `sep` between. -/
def dateText (sep : Text) (d : Date) : Text :=
  Text.decimal 4 d.year.toNat ++ sep ++ Text.decimal 2 d.month ++ sep ++ Text.decimal 2 d.day

/-- An offset: `Z` for universal time, else a sign with hours and minutes. -/
def offsetText : Option Int → Text
  | none => []
  | some s =>
    if s = 0 then ['Z']
    else
      let minutes := s.natAbs / 60
      (if s < 0 then '-' else '+') :: Text.decimal 2 (minutes / 60) ++ ':' ::
        Text.decimal 2 (minutes % 60)

/-- The timestamp as data files have it. -/
def text (t : Timestamp) : Text :=
  let fraction := if t.fraction = 0 then [] else '.' :: Text.decimal 6 t.fraction
  dateText ['-'] t.date ++ 'T' :: clockText [':'] t.secondOfDay ++ fraction ++ offsetText t.offset

/-- The timestamp as lists show it, to the second and without an offset. The year is not filled up. -/
def listText (t : Timestamp) : Text :=
  Text.ofNat t.date.year.toNat ++ '-' :: Text.decimal 2 t.date.month ++ '-' ::
    Text.decimal 2 t.date.day ++ ' ' :: clockText [':'] t.secondOfDay

/-- The timestamp as names of files have it. -/
def nameText (t : Timestamp) : Text := dateText [] t.date ++ '-' :: clockText [] t.secondOfDay

/-! ## Reading -/

/-- The number that two digits spell. -/
def twoDigits? (a b : Char) : Option Nat :=
  if a.isDigit ∧ b.isDigit then Text.digits? 10 [a, b] else none

/-- Reads a date at the front. -/
def readDate : Text → Option (Date × Text)
  | a :: b :: c :: d :: '-' :: e :: f :: '-' :: g :: h :: rest => do
    let century ← twoDigits? a b
    let year ← twoDigits? c d
    let month ← twoDigits? e f
    let day ← twoDigits? g h
    let date : Date := ⟨century * 100 + year, month, day⟩
    if date.isValid then some (date, rest) else none
  | _ => none

/-- Reads a fraction of a second, if one stands here, in microseconds; further digits are dropped. -/
def readFraction (t : Text) : Option (Nat × Text) :=
  match t with
  | c :: r =>
    if c = '.' || c = ',' then
      let ds := r.takeWhile Char.isDigit
      if ds.isEmpty then none
      else
        let six := ds.take 6
        (Text.digits? 10 six).map fun n => (n * Nat.pow 10 (6 - six.length), r.drop ds.length)
    else some (0, t)
  | [] => some (0, [])

/-- Reads a time of day: the microseconds since midnight. Seconds may be absent. -/
def readTime : Text → Option (Int × Text)
  | a :: b :: ':' :: c :: d :: rest => do
    let hour ← twoDigits? a b
    let minute ← twoDigits? c d
    if 23 < hour ∨ 59 < minute then none
    else
      let start : Int := hour * 3600 + minute * 60
      match rest with
      | ':' :: e :: f :: rest => do
        let second ← twoDigits? e f
        if 59 < second then none
        else do
          let (fraction, rest) ← readFraction rest
          return ((start + second) * micro + fraction, rest)
      | ':' :: _ => none
      | rest => return (start * micro, rest)
  | _ => none

/-- The offset of hours and minutes, less than a day. -/
def offset? (sign : Int) (hours minutes : Option Nat) : Option Int := do
  let h ← hours
  let m ← minutes
  let total : Int := h * 3600 + m * 60
  if m < 60 ∧ total < daySeconds then some (sign * total) else none

/-- The offset that a text spells; an empty text leaves it open. -/
def readOffset : Text → Option (Option Int)
  | [] => some none
  | ['Z'] | ['z'] => some (some 0)
  | s :: a :: b :: rest =>
    let sign := if s = '+' then some 1 else if s = '-' || s = '−' then some (-1) else none
    sign.bind fun sign => match rest with
      | [':', c, d] => (offset? sign (twoDigits? a b) (twoDigits? c d)).map some
      | [c, d] => (offset? sign (twoDigits? a b) (twoDigits? c d)).map some
      | _ => none
  | _ => none

/-- The character separates date and time. -/
def isSeparator (c : Char) : Bool := c = 'T' || c = 't' || c = ' ' || c = '_'

/-- The timestamp that a date with a time spells. -/
def ofDateTime? (t : Text) : Option Timestamp := do
  let (date, rest) ← readDate t
  match rest with
  | [] => none
  | c :: rest =>
    if !isSeparator c then none
    else do
      let (time, rest) ← readTime rest
      let offset ← readOffset rest
      return ⟨date.toDays * daySeconds * micro + time, offset⟩

/-- The timestamp of midnight that a date spells. -/
def ofDate? (t : Text) : Option Timestamp := do
  match ← readDate t with
  | (date, []) => return ⟨date.toDays * daySeconds * micro, none⟩
  | _ => none

/-- Numbers beyond this are milliseconds. -/
def millisecondBound : Nat := 20000000000

/-- The first and last seconds of the calendar: those of the years 0 and 9999. -/
def secondRange : Int × Int := (-62167219200, 253402300799)

/-- The timestamp of so many microseconds. -/
def ofMicros? (wall : Int) : Option Timestamp :=
  let second := wall / micro
  if secondRange.1 ≤ second ∧ second ≤ secondRange.2 then some ⟨wall, some 0⟩ else none

/-- The microseconds in the unit of a number of that size, rounded up to a whole one: numbers up to the
bound are seconds, others milliseconds. -/
def unitOf (size : Nat) : Int := if size ≤ millisecondBound then micro else 1000

/-- The timestamp of a whole number of seconds, or milliseconds. -/
def ofInt? (n : Int) : Option Timestamp := ofMicros? (n * unitOf n.natAbs)

/-- The microseconds nearest to so many units of `unit` microseconds, a half going away from zero; the
product is rounded to a real number first. -/
def nearestMicros (unit : Int) (r : Real) : Option Int := do
  let (num, den) ← r.fraction?
  let (num, den) ← (Real.ofRatio (num * unit) den).fraction?
  return (2 * num + den) / (2 * den)

/-- The timestamp of a real number of seconds, or milliseconds. The units are counted down to a whole
number, and what remains is counted in microseconds. -/
def ofReal? (r : Real) : Option Timestamp := do
  let (num, den) ← r.fraction?
  let unit := unitOf ((num.natAbs + den - 1) / den)
  let whole := num / den
  let micros ← nearestMicros unit (.ofRatio (num - whole * den) den)
  ofMicros? (whole * unit + micros)

/-- The exponent that a text spells, with its letter; an empty text is the exponent zero. -/
def exponent? : Text → Option Int
  | [] => some 0
  | e :: t =>
    if e = 'e' || e = 'E' then
      match t with
      | '-' :: ds => (Text.digits? 10 ds).map fun n => -(n : Int)
      | '+' :: ds => (Text.digits? 10 ds).map fun n => (n : Int)
      | ds => (Text.digits? 10 ds).map fun n => (n : Int)
    else none

/-- The timestamp that a number in digits spells. Only with a point may it have an exponent, and digits
may be absent on one side of the point. -/
def ofDigits? (t : Text) : Option Timestamp :=
  let (negative, r) := match t with
    | '-' :: r => (true, r)
    | '+' :: r => (false, r)
    | r => (false, r)
  let whole := r.takeWhile Char.isDigit
  match r.drop whole.length with
  | [] => (Text.digits? 10 whole).bind fun n => ofInt? (if negative then -(n : Int) else n)
  | '.' :: f => do
    let fraction := f.takeWhile Char.isDigit
    let n ← Text.digits? 10 (whole ++ fraction)
    let e ← exponent? (f.drop fraction.length)
    ofReal? (Real.ofDecimal negative n (e - fraction.length))
  | _ => none

/-- The timestamp, unless it lies in the year 0. -/
def afterYearZero (t : Timestamp) : Except Fault Timestamp :=
  if 1 ≤ t.date.year then .ok t else .error .timeOutOfRange

/-- The timestamp that a real number stands for. -/
def checkReal (r : Real) : Except Fault Timestamp :=
  (ofReal? r).elim (.error .timeOutOfRange) afterYearZero

/-- The bound of the whole numbers that are not taken as real ones. -/
def wordBound : Nat := 0x8000000000000000

/-- The timestamp that a whole number stands for. -/
def checkInt (i : Int) : Except Fault Timestamp :=
  if i.natAbs < wordBound then (ofInt? i).elim (.error .timeOutOfRange) afterYearZero
  else
    let r := Real.ofInt i
    if r.isFinite then checkReal r else .error .notTime

/-- The timestamp that a value stands for. -/
def check : Value → Except Fault Timestamp
  | .text t =>
    match (ofDateTime? t).orElse fun _ => (ofDigits? t).orElse fun _ => ofDate? t with
    | some s => s.afterYearZero
    | none => .error .notTimeText
  | .int i => checkInt i
  | .real r => checkReal r
  | .brokenText => .error .badUnicode
  | _ => .error .notTime

end Timestamp

end Emend
