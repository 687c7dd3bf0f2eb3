import Emend.Text.Template.Subject

/-!
# Faults of templates

A template is not well formed, or it is and speaks of something that is not there or cannot be shown in the
way it asks for.
-/

namespace Emend.Template

/-- Why a template cannot be filled. -/
inductive Error where
  /-- The template is not well formed, for the reason given. -/
  | malformed (reason : String)
  /-- The layout of a thing of that kind goes on behind its type. -/
  | badLayout (layout : Text) (k : Kind)
  /-- The conversion is not known. -/
  | unknownConversion (code : Char)
  /-- The type is not known, or does not go with the rest of the layout. -/
  | unknownType (before : String) (code : Char) (after : String)
  /-- A number is to be shown as a character, and there is none of that number. -/
  | noCharacter
  /-- There is no text of that name. -/
  | unknownName (name : Text)
  /-- A place is given by its number, and there are no numbered texts. -/
  | noNumbered (index : Nat)
  /-- What a place speaks of has no such part, item or layout. -/
  | subject (e : Subject.Error)
  deriving DecidableEq, Repr

namespace Error

/-- A character behind the blank and below the limit as it is, any other by its code point. -/
def shownBelow (limit : Nat) (c : Char) : Text :=
  if 32 < c.toNat ∧ c.toNat < limit then [c] else '\\' :: 'x' :: Nat.toDigits 16 c.toNat

/-- The error in words. -/
def message : Error → Text
  | malformed reason => reason.toList
  | badLayout layout k =>
    "Invalid format specifier '".toList ++ layout ++ "' for object of type '".toList ++
      k.fullName.toList ++ ['\'']
  | unknownConversion code => "Unknown conversion specifier ".toList ++ shownBelow 127 code
  | unknownType before code after => before.toList ++ shownBelow 128 code ++ after.toList
  | noCharacter => "%c arg not in range(0x110000)".toList
  | unknownName name => Text.quoted name
  | noNumbered i =>
    "Replacement index ".toList ++ Text.ofNat i ++
      " out of range for positional args tuple".toList
  | subject e => e.message

/-- The template itself is at fault, whatever texts are put into it. -/
def isMalformed : Error → Bool
  | malformed _ | badLayout _ _ | unknownConversion _ | unknownType _ _ _ => true
  | noCharacter | unknownName _ | noNumbered _ | subject _ => false

end Error

/-- The greatest number that a template can hold. -/
def maxNumber : Nat := 0x7FFFFFFFFFFFFFFF

/-- The number that a text of digits spells, if it is one. The digits are read from the left, and a
number that grows too great is a fault before what follows it is looked at. -/
def number? (t : Text) : Except Error (Option Nat) :=
  if t.isEmpty then .ok none else go 0 t
where
  /-- Reads on behind the digits of `n`. -/
  go (n : Nat) : Text → Except Error (Option Nat)
    | [] => .ok (some n)
    | c :: t => match Text.decimalDigit? c with
      | none => .ok none
      | some d =>
        if maxNumber < n * 10 + d then .error (.malformed "Too many decimal digits in format string")
        else go (n * 10 + d) t

end Emend.Template
