import Emend.Data.Real
import Emend.Text.Utf8

/-!
# Values of data files

The values that a JSON text or a YAML document spells. A record keeps its fields in the order in which
they were written. In YAML a key can be any value; in JSON keys are texts.
-/

namespace Emend

/-- A value read from a data file. -/
inductive Value where
  | null
  | bool (b : Bool)
  | int (i : Int)
  | real (r : Real)
  | text (t : Text)
  | list (items : List Value)
  | record (fields : List (Value × Value))
  /-- Bytes that are not meant as text. -/
  | binary (bytes : Bytes)
  /-- A text with code points that are no characters. -/
  | brokenText
  /-- A date, with or without a time. -/
  | moment
  /-- A set of values. -/
  | set (items : List Value)

namespace Value

/-- A record whose keys are texts. -/
def object (fields : List (String × Value)) : Value :=
  record (fields.map fun (k, v) => (text k.toList, v))

/-- The last field of that name. -/
def lookup? (fields : List (Value × Value)) (name : Text) : Option Value :=
  fields.foldl (fun found (k, v) => match k with
    | text t => if t = name then some v else found
    | _ => found) none

/-- The fields whose keys are texts, each name once: at its first place, with its last value. -/
def textFields (fields : List (Value × Value)) : List (Text × Value) :=
  let names := fields.foldl (fun seen (k, _) => match k with
    | text t => if seen.contains t then seen else seen ++ [t]
    | _ => seen) []
  names.map fun n => (n, (lookup? fields n).getD null)

/-- The field of that name of a record. -/
def field? (v : Value) (name : String) : Option Value :=
  match v with
  | record fields => lookup? fields name.toList
  | _ => none

/-- The text, if it is one. -/
def text? : Value → Option Text
  | text t => some t
  | _ => none

end Value

end Emend
