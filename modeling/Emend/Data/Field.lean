import Emend.Data.Value

/-!
# Faults of fields

A record read from outside is checked field by field. A `FieldError` says which part of the record is
at fault, by the names and places that lead to it, and what is wrong with it.
-/

namespace Emend

/-- A step from a value to one of its parts. -/
inductive Step where
  | name (t : Text)
  | place (n : Nat)
  deriving DecidableEq, Repr

/-- What is wrong with a value. -/
inductive Fault where
  | missing
  | notText
  | tooShort
  | badUnicode
  | notMember
  | notLiteral
  | notInt
  | notIntText
  | intTooLong
  | notWhole
  | notFinite
  | tooSmall
  | notBool
  | notBoolText
  | notList
  | notRecord
  | notTime
  | notTimeText
  | timeOutOfRange
  | notPermitted
  /-- A rule of the record's own, in words. -/
  | rule (message : Text)
  deriving DecidableEq, Repr

/-- The name of the fault in reports. -/
def Fault.name : Fault → String
  | missing => "missing"
  | notText => "string_type"
  | tooShort => "string_too_short"
  | badUnicode => "string_unicode"
  | notMember => "enum"
  | notLiteral => "literal_error"
  | notInt => "int_type"
  | notIntText => "int_parsing"
  | intTooLong => "int_parsing_size"
  | notWhole => "int_from_float"
  | notFinite => "finite_number"
  | tooSmall => "greater_than_equal"
  | notBool => "bool_type"
  | notBoolText => "bool_parsing"
  | notList => "list_type"
  | notRecord => "model_type"
  | notTime => "datetime_type"
  | notTimeText => "datetime_from_date_parsing"
  | timeOutOfRange => "datetime_parsing"
  | notPermitted => "extra_forbidden"
  | rule _ => "value_error"

/-- A part of a record that is at fault. -/
structure FieldError where
  location : List Step
  fault : Fault
  deriving DecidableEq, Repr

/-- The error seen from the value that holds the record at `s`. -/
def FieldError.inside (s : Step) (e : FieldError) : FieldError :=
  { e with location := s :: e.location }

/-- The checks of the fields of one record: a value if all are well, or else all errors in order. -/
inductive Checked (α : Type) where
  | valid (a : α)
  | invalid (errors : List FieldError)

namespace Checked

variable {α β : Type}

/-- The value changed by a function. -/
def map (f : α → β) : Checked α → Checked β
  | valid a => valid (f a)
  | invalid es => invalid es

/-- Checks both, the first one first, and collects the errors of both. -/
def andAlso (x : Checked (α → β)) (y : Checked α) : Checked β :=
  match x, y with
  | valid f, valid a => valid (f a)
  | invalid es, valid _ => invalid es
  | valid _, invalid es => invalid es
  | invalid es, invalid fs => invalid (es ++ fs)

/-- The check of a part that stands at `s`. -/
def inside (s : Step) : Checked α → Checked α
  | valid a => valid a
  | invalid es => invalid (es.map (·.inside s))

/-- The check of one value that has at most one fault. -/
def ofExcept : Except Fault α → Checked α
  | .ok a => valid a
  | .error f => invalid [⟨[], f⟩]

/-- The value or all errors. -/
def toExcept : Checked α → Except (List FieldError) α
  | valid a => .ok a
  | invalid es => .error es

/-- Checks the members of a list, counted from `n`. -/
def members (check : Value → Checked α) (n : Nat) : List Value → Checked (List α)
  | [] => valid []
  | v :: vs => (((check v).inside (.place n)).map List.cons).andAlso (members check (n + 1) vs)

end Checked

end Emend
