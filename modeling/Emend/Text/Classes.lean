import Emend.Text.Utf8

/-!
# Classes of characters

Patterns look at the bytes of a text one by one. `byteChars` shows each byte as a character, so that a
pattern is a text too, and `namedClass?` tells which of these characters the classes hold that patterns
call by name. A class is a list of closed ranges, and no byte beyond ASCII is in a named one.
-/

namespace Emend.Text

/-- The bytes of a text, each as a character. -/
def byteChars (t : Text) : Text := (Utf8.encode t).map fun b => Char.ofNat b.toNat

/-- A closed range of characters. -/
abbrev CharRange := Char × Char

/-- The character lies in one of the ranges. -/
def inRanges (rs : List CharRange) (c : Char) : Bool := rs.any fun (first, last) => first ≤ c && c ≤ last

/-- The range of one character. -/
def just (c : Char) : CharRange := (c, c)

/-- The ASCII letters in lower case, those in upper case, and the digits. -/
def lowerRange : CharRange := ('a', 'z')

@[inherit_doc lowerRange]
def upperRange : CharRange := ('A', 'Z')

@[inherit_doc lowerRange]
def digitRange : CharRange := ('0', '9')

/-- The characters that words are made of. -/
def wordRanges : List CharRange := [digitRange, upperRange, lowerRange, just '_']

/-- The characters that leave a blank space. -/
def spaceRanges : List CharRange := [('\t', '\r'), just ' ']

/-- The names of classes, and what the classes hold. -/
def namedClasses : List (String × List CharRange) :=
  [("alnum", [digitRange, upperRange, lowerRange]), ("alpha", [upperRange, lowerRange]),
   ("blank", [just '\t', just ' ']), ("cntrl", [('\x00', '\x1f'), just '\x7f']),
   ("digit", [digitRange]), ("graph", [('!', '~')]), ("lower", [lowerRange]), ("print", [(' ', '~')]),
   ("punct", [('!', '/'), (':', '@'), ('[', '\x60'), ('\x7b', '~')]), ("space", spaceRanges),
   ("upper", [upperRange]), ("xdigit", [digitRange, ('A', 'F'), ('a', 'f')])]

/-- The class of that name. -/
def namedClass? (name : Text) : Option (List CharRange) :=
  (namedClasses.find? (·.1.toList = name)).map (·.2)

example : (namedClass? "punct".toList).map (inRanges · '_') = some true := by decide

end Emend.Text
