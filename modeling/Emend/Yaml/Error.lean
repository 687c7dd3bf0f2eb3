import Emend.Text.Integer
import Emend.Text.Points
import Emend.Text.Utf8

/-!
# Faults of YAML texts

A file is no text, or its text is malformed as a whole, or it is well formed and one of its scalars has no
value of the kind that its tag or its form asks for.
-/

namespace Emend.Yaml

/-- Why a scalar has no value. -/
inductive ScalarFault where
  /-- It has the form of a number or a date and is none. -/
  | bad (message : Text)
  /-- It stands for a number that the machine has no room for. -/
  | overflow (message : Text)
  /-- It is declared as a truth value and is no word for one. -/
  | unknownWord (word : Text.Points)
  /-- It is declared as a number and says nothing. -/
  | emptyNumber
  /-- It is declared as a date and has not the form of one. -/
  | notATime
  /-- A record is declared as a date. -/
  | timeOfFields
  /-- It lies in too many collections, or in a record that holds itself. -/
  | tooDeep
  deriving DecidableEq, Repr

namespace ScalarFault

/-- The fault in words. -/
def message : ScalarFault → Text
  | bad m | overflow m => m
  | unknownWord word => word.quoted
  | emptyNumber => "string index out of range".toList
  | notATime => "'NoneType' object has no attribute 'groupdict'".toList
  | timeOfFields => "expected string or bytes-like object, got 'list'".toList
  | tooDeep => "maximum recursion depth exceeded".toList

end ScalarFault

/-- Why a text has no value. -/
inductive Error where
  /-- The bytes spell no text. -/
  | notText (refusal : Utf8.DecodeError)
  /-- The text is not well formed. -/
  | malformed (reason : String)
  /-- A scalar has no value. -/
  | scalar (fault : ScalarFault)
  deriving DecidableEq, Repr

namespace Error

/-- A scalar that is no number or date. -/
def bad (message : Text) : Error := .scalar (.bad message)

/-- The greatest length of a quotation in the words about a whole number. -/
def quotationLength : Nat := 200

/-- A scalar that is no whole number in a base. -/
def ofInt (base : Nat) (t : Text.Points) : Text.IntFault → Error
  | .notANumber => bad ("invalid literal for int() with base ".toList ++ Text.ofNat base ++
      ": ".toList ++ t.quoted.take quotationLength)
  | .tooManyDigits count => bad (Text.tooManyDigits count)

end Error

/-- The whole number that a text spells in a base. -/
def wholeIn (base : Nat) (t : Text.Points) : Except Error Int :=
  (Text.intIn base t.shape).mapError (.ofInt base t)

end Emend.Yaml
