import Emend.Data.Value
import Emend.Time.Calendar
import Emend.Yaml.Error

/-!
# Dates of YAML

A date has a year of four digits, a month and a day, and may be followed by a time of day, which may have
an offset from universal time. `isMomentForm` says which plain scalars are dates; `momentOf` checks the
date of a scalar that is one or is declared as one.
-/

namespace Emend.Yaml

/-- A time of day. -/
structure TimeOfDay where
  hour : Nat
  minute : Nat
  second : Nat
  /-- The minutes by which it is ahead of universal time, if it is not universal time itself. -/
  offset : Option Int
  deriving DecidableEq, Repr

/-- A date, and what of a time of day was written. -/
structure Moment where
  date : Date
  time : Option TimeOfDay
  deriving DecidableEq, Repr

/-! ## Reading -/

/-- Reads `least` to `most` digits at the front. -/
def readDigits (least most : Nat) (t : Text) : Option (Nat × Text) :=
  let ds := (t.takeWhile Char.isDigit).take most
  if ds.length < least then none else (Text.digits? 10 ds).map fun n => (n, t.drop ds.length)

/-- What follows a character, if the text begins with it. -/
def after? (c : Char) : Text → Option Text
  | [] => none
  | d :: t => if c = d then some t else none

/-- The offset from universal time that a text is: hours and minutes behind a sign. -/
def readHours (t : Text) : Option Nat := do
  let (hours, t) ← readDigits 1 2 t
  match t with
  | [] => return hours * 60
  | t =>
    let (minutes, t) ← readDigits 2 2 (← after? ':' t)
    if t.isEmpty then return hours * 60 + minutes else none

/-- The offset that a text is, blanks before it not counted; an empty text and `Z` are none. -/
def readOffset (t : Text) : Option (Option Int) :=
  match t.dropWhile fun c => c = ' ' || c = '\t' with
  | [] => if t.isEmpty then some none else none
  | ['Z'] => some none
  | '+' :: rest => (readHours rest).map fun n => some n
  | '-' :: rest => (readHours rest).map fun n => some (-(n : Int))
  | _ => none

/-- Reads a time of day with an offset behind a date. -/
def readTimeOfDay (t : Text) : Option TimeOfDay := do
  let t ← match t with
    | 'T' :: r => some r
    | 't' :: r => some r
    | r =>
      let r' := r.dropWhile fun c => c = ' ' || c = '\t'
      if r'.length < r.length then some r' else none
  let (hour, t) ← readDigits 1 2 t
  let (minute, t) ← readDigits 2 2 (← after? ':' t)
  let (second, t) ← readDigits 2 2 (← after? ':' t)
  let t := match t with
    | '.' :: r => r.dropWhile Char.isDigit
    | r => r
  return { hour, minute, second, offset := ← readOffset t }

/-- The date with or without a time of day that a text spells. -/
def readMoment (t : Text) : Option Moment := do
  let (year, t) ← readDigits 4 4 t
  let (month, t) ← readDigits 1 2 (← after? '-' t)
  let (day, t) ← readDigits 1 2 (← after? '-' t)
  let date : Date := ⟨year, month, day⟩
  if t.isEmpty then return ⟨date, none⟩
  else return ⟨date, some (← readTimeOfDay t)⟩

/-- The text has the form of a date. A date alone has two digits for the month and for the day. -/
def isMomentForm (t : Text) : Bool :=
  match readMoment t with
  | none => false
  | some ⟨_, some _⟩ => true
  | some ⟨_, none⟩ => t.length = 10

/-! ## Values -/

/-- The minutes in a day. -/
def dayMinutes : Int := 1440

/-- A span of minutes in words: its days, counted down to a whole number, and the seconds beyond. -/
def spanText (minutes : Int) : Text :=
  let seconds := minutes % dayMinutes * 60
  "datetime.timedelta(days=".toList ++ Text.ofInt (minutes / dayMinutes) ++
    (if seconds = 0 then [] else ", seconds=".toList ++ Text.ofInt seconds) ++ [')']

/-- An offset is less than a day. -/
def checkOffset (minutes : Int) : Except Error Unit :=
  if minutes.natAbs < dayMinutes.natAbs then .ok ()
  else .error (.bad ("offset must be a timedelta strictly between -timedelta(hours=24) and ".toList ++
    "timedelta(hours=24), not ".toList ++ spanText minutes ++ ['.']))

/-- The day is one of the calendar. -/
def checkDate (d : Date) : Except Error Unit :=
  let bad (message : String) : Except Error Unit := .error (.bad message.toList)
  if d.year = 0 then bad "year 0 is out of range"
  else if d.month = 0 ∨ 12 < d.month then bad "month must be in 1..12"
  else if !d.isValid then bad "day is out of range for month"
  else .ok ()

/-- The time is one of the day. -/
def checkTime (t : TimeOfDay) : Except Error Unit :=
  let bad (message : String) : Except Error Unit := .error (.bad message.toList)
  if 23 < t.hour then bad "hour must be in 0..23"
  else if 59 < t.minute then bad "minute must be in 0..59"
  else if 59 < t.second then bad "second must be in 0..59"
  else .ok ()

/-- The text without the line feed at its end, if one stands there. -/
def withoutLineFeed (t : Text) : Text := if t.getLast? = some '\n' then t.dropLast else t

/-- The date that a scalar spells, which has to be one of the calendar. The offset is looked at first. -/
def momentOf (t : Text) : Except Error Value := do
  match readMoment (withoutLineFeed t) with
  | none => .error (.scalar .notATime)
  | some m =>
    checkOffset ((m.time.bind (·.offset)).getD 0)
    checkDate m.date
    m.time.forM checkTime
    return .moment

end Emend.Yaml
