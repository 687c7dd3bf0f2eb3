/-!
# Texts

A text is a list of characters. Every offset, length and cut in this library counts characters,
so a text is read, searched and spliced by recursion on the list and never by a byte position.

`lines` and `unlines` cut a text at line feeds and join it again; only the line feed ends a line
here, a carriage return is an ordinary character.
-/

namespace Emend

/-- A text is a list of characters. -/
abbrev Text := List Char

namespace Text

/-- The pieces of a list between occurrences of `sep`; there is always one more piece than `sep`. -/
def splitOn {α : Type} [DecidableEq α] (sep : α) : List α → List (List α)
  | [] => [[]]
  | c :: t =>
    if c = sep then [] :: splitOn sep t
    else match splitOn sep t with
      | [] => [[c]]
      | l :: ls => (c :: l) :: ls

/-- The lines of `t`; a text that ends in a line feed has an empty last line. -/
def lines (t : Text) : List Text := splitOn '\n' t

/-- The lines joined by line feeds. -/
def unlines : List Text → Text
  | [] => []
  | [l] => l
  | l :: ls => l ++ '\n' :: unlines ls

/-- Replaces every line feed by a blank, so that the text fits on one line. -/
def onOneLine (t : Text) : Text := t.map fun c => if c = '\n' then ' ' else c

/-- Reads `\r\n` and a lone `\r` as a line feed, the way a file opened as text does. -/
def universalNewlines : Text → Text
  | [] => []
  | '\r' :: '\n' :: t => '\n' :: universalNewlines t
  | '\r' :: t => '\n' :: universalNewlines t
  | c :: t => c :: universalNewlines t

/-- The texts are in the order of their code points, character by character; a text comes before those
that go on behind it. -/
def isInOrder : Text → Text → Bool
  | [], _ => true
  | _ :: _, [] => false
  | a :: s, b :: t => if a = b then isInOrder s t else a.toNat < b.toNat

theorem isInOrder_refl (t : Text) : isInOrder t t = true := by
  induction t with
  | nil => rfl
  | cons c t ih => simpa [isInOrder] using ih

theorem splitOn_ne_nil {α : Type} [DecidableEq α] (sep : α) (t : List α) : splitOn sep t ≠ [] := by
  cases t with
  | nil => simp [splitOn]
  | cons c t =>
    unfold splitOn
    split
    · simp
    · split <;> simp

theorem unlines_lines (t : Text) : unlines (lines t) = t := by
  unfold lines
  induction t with
  | nil => rfl
  | cons c t ih =>
    unfold splitOn
    split
    · rename_i h
      subst h
      cases hs : splitOn '\n' t with
      | nil => exact absurd hs (splitOn_ne_nil _ _)
      | cons l ls =>
        rw [hs] at ih
        simp [unlines, ih]
    · cases hs : splitOn '\n' t with
      | nil => exact absurd hs (splitOn_ne_nil _ _)
      | cons l ls =>
        rw [hs] at ih
        subst ih
        cases ls <;> rfl

end Text

end Emend
