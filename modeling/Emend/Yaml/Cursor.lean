import Emend.Yaml.Error

/-!
# A place in a YAML text

A `Cursor` is what is left of a text together with the line, the column and the offset that have been
reached. Indentation in YAML is a matter of columns, so every reader of this format moves a cursor and
never the bare text. A byte order mark takes no column.

A reader that refuses the text tells how far it had to look for that: a `Fault` is an error with the offset
of the last character that was looked at.
-/

namespace Emend.Yaml

/-- The character ends a line. -/
def isBreak (c : Char) : Bool :=
  c = '\n' || c = '\r' || c.toNat == 0x85 || c.toNat == 0x2028 || c.toNat == 0x2029

/-- The character is a space, a tab or the end of a line. -/
def isWhite (c : Char) : Bool := c = ' ' || c = '\t' || isBreak c

/-- The character is a letter, a digit, a hyphen or an underscore, all of them ASCII. -/
def isNameChar (c : Char) : Bool := c.isAlphanum || c = '-' || c = '_'

/-- The character may stand in a YAML text. -/
def isAllowed (c : Char) : Bool :=
  let n := c.toNat
  n == 0x09 || n == 0x0A || n == 0x0D || (0x20 ≤ n && n ≤ 0x7E) || n == 0x85 ||
    (0xA0 ≤ n && n ≤ 0xFFFD) || 0x10000 ≤ n

/-- The byte order mark. -/
def byteOrderMark : Char := '\ufeff'

/-- What is left of a text, and where it begins. -/
structure Cursor where
  rest : Text
  /-- The number of characters that are left. -/
  left : Nat
  line : Nat := 0
  column : Nat := 0
  index : Nat := 0
  deriving Repr

/-- An error, and the offset of the last character that had to be looked at to find it. -/
structure Fault where
  error : Error
  index : Nat
  deriving Repr

namespace Cursor

/-- The cursor at the front of a text. -/
def ofText (t : Text) : Cursor := { rest := t, left := t.length }

/-- Refuses the text because of the next character. -/
def refuse {α : Type} (c : Cursor) (reason : String) : Except Fault α :=
  .error ⟨.malformed reason, c.index⟩

/-- The next character. -/
def peek (c : Cursor) : Option Char := c.rest.head?

/-- The text ends here. -/
def atEnd (c : Cursor) : Bool := c.rest.isEmpty

/-- The next character is one of those. A text that ends here has none. -/
def sees (c : Cursor) (p : Char → Bool) : Bool := c.peek.any p

/-- The next character is one of those, or the text ends. -/
def seesOrEnds (c : Cursor) (p : Char → Bool) : Bool := c.peek.all p

/-- The character `n` further on is one of those, or the text ends before it. -/
def seesOrEndsAt (c : Cursor) (n : Nat) (p : Char → Bool) : Bool := c.rest[n]?.all p

/-- The cursor behind the next character. -/
def advance (c : Cursor) : Cursor :=
  match c.rest with
  | [] => c
  | ch :: r =>
    if isBreak ch && !(ch = '\r' && r.head? = some '\n') then
      ⟨r, c.left - 1, c.line + 1, 0, c.index + 1⟩
    else if ch = byteOrderMark then ⟨r, c.left - 1, c.line, c.column, c.index + 1⟩
    else ⟨r, c.left - 1, c.line, c.column + 1, c.index + 1⟩

/-- The cursor behind the next `n` characters. -/
def advanceBy : Nat → Cursor → Cursor
  | 0, c => c
  | n + 1, c => advanceBy n c.advance

/-- Reads characters as long as they are of those. -/
def takeWhile (p : Char → Bool) (c : Cursor) : Text × Cursor :=
  let t := c.rest.takeWhile p
  (t, c.advanceBy t.length)

/-- Skips characters as long as they are of those. -/
def skipWhile (p : Char → Bool) (c : Cursor) : Cursor := (c.takeWhile p).2

/-- Skips spaces. -/
def skipSpaces (c : Cursor) : Cursor := c.skipWhile (· = ' ')

/-- Skips a comment, if one stands here. -/
def skipComment (c : Cursor) : Cursor :=
  if c.sees (· = '#') then c.skipWhile (!isBreak ·) else c

/-- Reads the end of a line, if one stands here. Line and paragraph separators stand for themselves,
all other ends for a line feed. -/
def readBreak (c : Cursor) : Option (Char × Cursor) :=
  match c.rest with
  | '\r' :: '\n' :: _ => some ('\n', c.advanceBy 2)
  | ch :: _ =>
    if isBreak ch then
      some (if ch.toNat == 0x2028 || ch.toNat == 0x2029 then ch else '\n', c.advance)
    else none
  | [] => none

/-- The text goes on with that word, behind which it is white or ends. -/
def seesWord (c : Cursor) (word : String) : Bool :=
  word.toList.isPrefixOf c.rest && c.seesOrEndsAt word.length isWhite

/-- A line that separates documents begins here, if a line begins here. -/
def seesSeparator (c : Cursor) : Bool := c.seesWord "---" || c.seesWord "..."

theorem left_ofText (t : Text) : (ofText t).left = (ofText t).rest.length := rfl

theorem left_advance (c : Cursor) (h : c.left = c.rest.length) : c.advance.left = c.advance.rest.length := by
  unfold advance
  split
  · exact h
  · rename_i e
    rw [e] at h
    split
    · simp [h]
    · split <;> simp [h]

theorem length_rest_advance (c : Cursor) : c.advance.rest.length = c.rest.length - 1 := by
  unfold advance
  split
  · rename_i h
    simp [h]
  · rename_i h
    split
    · simp [h]
    · split <;> simp [h]

end Cursor

end Emend.Yaml
