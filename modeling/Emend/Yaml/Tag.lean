import Emend.Text.Base64
import Emend.Yaml.Moment
import Emend.Yaml.Number

/-!
# Tags of YAML

The tag of a node says what kind of value it stands for. A plain scalar without a tag is given one by
its form: truth values, whole and real numbers, dates and null have forms of their own, and all else
is a text. Whole numbers can be written in base two, eight, ten and sixteen, and both kinds of numbers
in base sixty with colons between the digits.
-/

namespace Emend.Yaml

/-- What kind of value a node stands for. -/
inductive Tag where
  | null
  | bool
  | int
  | real
  | text
  | binary
  | time
  | sequence
  | mapping
  | set
  | orderedMapping
  | pairs
  /-- The key `<<`, whose value is a mapping to take over. -/
  | merge
  /-- The key `=`. -/
  | default
  | unknown
  deriving DecidableEq, Repr

/-- What the names of known tags begin with. -/
def tagSpace : String := "tag:yaml.org,2002:"

/-- The known tags by name. -/
def Tag.names : List (String × Tag) :=
  [("null", .null), ("bool", .bool), ("int", .int), ("float", .real), ("str", .text),
   ("binary", .binary), ("timestamp", .time), ("seq", .sequence), ("map", .mapping), ("set", .set),
   ("omap", .orderedMapping), ("pairs", .pairs), ("merge", .merge), ("value", .default)]

/-- The tag of that name. -/
def Tag.ofName (t : Text) : Tag :=
  (Tag.names.findSome? fun (n, tag) =>
    if (tagSpace ++ n).toList = t then some tag else none).getD .unknown

/-- The words for truth values, in lower case. -/
def truthWords : List (String × Bool) :=
  [("yes", true), ("no", false), ("true", true), ("false", false), ("on", true), ("off", false)]

/-- The text with an upper-case first letter. -/
def capitalized : Text → Text
  | [] => []
  | c :: t => c.toUpper :: t

/-- The text is one of the words in lower case, in upper case, or with a capital. -/
def isWord (words : List String) (t : Text) : Bool :=
  words.any fun w =>
    let w := w.toList
    t == w || t == w.map Char.toUpper || t == capitalized w

/-- The tag that a scalar has by its form. -/
def Tag.ofForm (t : Text) : Tag :=
  if isWord (truthWords.map (·.1)) t then .bool
  else if isRealForm t then .real
  else if isIntForm t then .int
  else if t == ['<', '<'] then .merge
  else if t.isEmpty || t == ['~'] || isWord ["null"] t then .null
  else if isMomentForm t then .time
  else if t == ['='] then .default
  else .text

/-- The tag that a scalar without one has. A line feed at its end does not count, unless it is all there
is. -/
def Tag.ofPlain (t : Text) : Tag := Tag.ofForm (if t.length = 1 then t else withoutLineFeed t)

/-! ## The values of scalars -/

/-- The value of a scalar with that tag. -/
def Tag.scalarValue (tag : Tag) (t : Text.Points) : Except Error Value :=
  match tag with
  | .text => .ok (t.text?.elim .brokenText .text)
  | .null => .ok .null
  | .bool =>
    match truthWords.find? (·.1.toList = t.lower.shape) with
    | some (_, b) => .ok (.bool b)
    | none => .error (.scalar (.unknownWord t.lower))
  | .int => Value.int <$> intOf t
  | .real => Value.real <$> realOf t
  | .time => momentOf t.shape
  | .binary =>
    if !t.shape.all fun c => decide (c.toNat < 0x80) then .error (.malformed "binary data is not ASCII")
    else match Base64.decode? t.shape with
      | some bs => .ok (.binary bs)
      | none => .error (.malformed "failed to decode base 64 data")
  | _ => .error (.malformed "a scalar cannot have this tag")

end Emend.Yaml
