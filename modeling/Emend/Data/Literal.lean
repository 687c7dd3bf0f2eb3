import Emend.Data.Shortest
import Emend.Data.Value
import Emend.Text.Quoted

/-!
# Values as literals

A value on one line for a report. A text stands for itself at the top and is quoted inside a list or a
record.
-/

namespace Emend.Value

mutual

/-- The value as a literal. -/
def literal : Value → Text
  | .null => "None".toList
  | .bool b => (if b then "True" else "False").toList
  | .int i => Text.ofInt i
  | .text t => Text.quoted t
  | .list vs => '[' :: literals vs ++ [']']
  | .record fs => '{' :: literalFields fs ++ ['}']
  | .set vs => '{' :: literals vs ++ ['}']
  | .real r => r.toText ⟨"inf", "nan"⟩
  | .binary _ | .brokenText | .moment => "...".toList

/-- The items of a list. -/
def literals : List Value → Text
  | [] => []
  | [v] => literal v
  | v :: vs => literal v ++ ", ".toList ++ literals vs

/-- The fields of a record. -/
def literalFields : List (Value × Value) → Text
  | [] => []
  | [(k, v)] => literal k ++ ": ".toList ++ literal v
  | (k, v) :: fs => literal k ++ ": ".toList ++ literal v ++ ", ".toList ++ literalFields fs

end

/-- The value in a report. -/
def shown : Value → Text
  | .text t => t
  | v => v.literal

/-- The value says nothing: null, false, zero, or without any part. -/
def isVoid : Value → Bool
  | .null | .bool false | .int 0 | .text [] | .list [] | .record [] | .set [] | .binary [] => true
  | .real (.finite 0 _) => true
  | _ => false

end Emend.Value
