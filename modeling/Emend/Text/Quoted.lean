import Emend.Text.Digits
import Emend.Text.Printable

/-!
# Quoted texts

A quoted text shows a text on one line between quotation marks. Single marks are used unless the text
holds a single mark and no double one. The mark itself and the backslash are escaped, line feed,
carriage return and tab have escapes of one letter, and what is not printable is written by its code
point in two, four or eight hexadecimal digits.
-/

namespace Emend.Text

/-- The mark that `quoted` puts around a text. -/
def quotationMark (t : Text) : Char :=
  if t.contains '\'' && !t.contains '"' then '"' else '\''

/-- How one character stands between quotation marks `mark`. -/
def escapeChar (mark c : Char) : Text :=
  if c = mark || c = '\\' then ['\\', c]
  else if c = '\n' then ['\\', 'n']
  else if c = '\r' then ['\\', 'r']
  else if c = '\t' then ['\\', 't']
  else if isPrintable c then [c]
  else if c.toNat < 0x100 then '\\' :: 'x' :: hex 2 c.toNat
  else if c.toNat < 0x10000 then '\\' :: 'u' :: hex 4 c.toNat
  else '\\' :: 'U' :: hex 8 c.toNat

/-- The text between quotation marks. -/
def quoted (t : Text) : Text :=
  let mark := quotationMark t
  mark :: t.flatMap (escapeChar mark) ++ [mark]

end Emend.Text
