import Emend.Text.LowerCase
import Emend.Text.Quoted

/-!
# Texts with halves of characters

A character beyond U+FFFF can be written as two escapes, one for each half. A half that stands by itself
is a code point and no character, so what escapes spell is a list of points. Whoever looks for
characters in it takes its `shape`, in which every half shows as the character for what is unreadable.
-/

namespace Emend.Text

/-- A code point: a character, or one half of a character. -/
inductive Point where
  | char (c : Char)
  | half (code : Nat)
  deriving DecidableEq, Repr

namespace Point

/-- The character in the shape of a text. -/
def shape : Point → Char
  | char c => c
  | half _ => '\ufffd'

/-- The character, if it is one. -/
def char? : Point → Option Char
  | char c => some c
  | half _ => none

/-- How the point stands between quotation marks `mark`. -/
def escaped (mark : Char) : Point → Text
  | char c => escapeChar mark c
  | half code => '\\' :: 'u' :: hex 4 code

end Point

/-- A list of code points. -/
abbrev Points := List Point

namespace Points

/-- The points of a text. -/
def ofText (t : Text) : Points := t.map .char

/-- The text, if all points are characters. -/
def text? (ps : Points) : Option Text := ps.mapM Point.char?

/-- The text in which the unreadable character stands for every half. -/
def shape (ps : Points) : Text := ps.map Point.shape

/-- The points between quotation marks. -/
def quoted (ps : Points) : Text :=
  let mark := quotationMark ps.shape
  mark :: ps.flatMap (Point.escaped mark) ++ [mark]

/-- The points in lower case; a half stays as it is. -/
def lower (ps : Points) : Points :=
  (ps.zip (lowerEach false ps.shape)).flatMap fun (p, lowered) => match p with
    | .char _ => ofText lowered
    | .half _ => [p]

theorem text?_ofText (t : Text) : text? (ofText t) = some t := by
  induction t with
  | nil => rfl
  | cons c t ih =>
    have h : List.mapM Point.char? (ofText t) = some t := ih
    simp [text?, ofText, Point.char?] at *
    simp [h]

theorem shape_ofText (t : Text) : shape (ofText t) = t := by
  induction t with
  | nil => rfl
  | cons c t ih => simpa [shape, ofText, Point.shape] using ih

end Points

end Emend.Text
