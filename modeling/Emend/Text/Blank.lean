import Emend.Text.Basic

/-!
# Blank characters

Blank characters are those with the Unicode property `White_Space` and the four information
separators U+001C to U+001F. `strip` and `stripEnd` remove them at the ends of a text, `tokens` cuts
a text at runs of them.
-/

namespace Emend.Text

/-- Closed ranges of blank code points, ascending and apart. -/
def blankRanges : List (Nat × Nat) :=
  [(0x09, 0x0D), (0x1C, 0x20), (0x85, 0x85), (0xA0, 0xA0), (0x1680, 0x1680), (0x2000, 0x200A),
   (0x2028, 0x2029), (0x202F, 0x202F), (0x205F, 0x205F), (0x3000, 0x3000)]

/-- The character is blank. -/
def isBlank (c : Char) : Bool := blankRanges.any fun r => r.1 ≤ c.toNat && c.toNat ≤ r.2

/-- Every character of the text is blank; so it is for the empty text. -/
def allBlank (t : Text) : Bool := t.all isBlank

theorem allBlank_append {s t : Text} (hs : allBlank s = true) (ht : allBlank t = true) :
    allBlank (s ++ t) = true := by
  rw [allBlank, List.all_append, Bool.and_eq_true]
  exact ⟨hs, ht⟩

/-- Removes the blank characters at the front. -/
def stripStart (t : Text) : Text := t.dropWhile isBlank

/-- Removes the blank characters at the end. -/
def stripEnd (t : Text) : Text := (t.reverse.dropWhile isBlank).reverse

/-- Removes the blank characters at both ends. -/
def strip (t : Text) : Text := stripEnd (stripStart t)

/-- The maximal runs of characters that are not blank. -/
def tokens : Text → List Text
  | [] => []
  | c :: t =>
    if isBlank c then tokens t
    else match t with
      | [] => [[c]]
      | d :: _ =>
        if isBlank d then [c] :: tokens t
        else match tokens t with
          | [] => [[c]]
          | w :: ws => (c :: w) :: ws

/-- The character may stand around a number: it is blank, and no information separator. -/
def isMargin (c : Char) : Bool := isBlank c && !(0x1C ≤ c.toNat && c.toNat ≤ 0x1F)

/-- Removes the characters that may stand around a number. -/
def withoutMargins (t : Text) : Text := ((t.dropWhile isMargin).reverse.dropWhile isMargin).reverse

/-- Removes the characters of `cs` at both ends. -/
def stripChars (cs : List Char) (t : Text) : Text :=
  ((t.dropWhile cs.contains).reverse.dropWhile cs.contains).reverse

/-- Every character that the core library calls whitespace is blank. -/
theorem isBlank_of_isWhitespace (c : Char) (h : c.isWhitespace = true) : isBlank c = true := by
  simp only [Char.isWhitespace, Bool.or_eq_true, decide_eq_true_eq] at h
  rcases h with ((h | h) | h) | h <;> subst h <;> decide

/-- A line ends here for a reader that knows more than the line feed: also the carriage return, the
vertical tab, the form feed, the information separators but the last, the next line, and the line and
paragraph separators. -/
def isLineBreak (c : Char) : Bool :=
  (0x0A ≤ c.toNat && c.toNat ≤ 0x0D) || (0x1C ≤ c.toNat && c.toNat ≤ 0x1E) ||
    c.toNat == 0x85 || c.toNat == 0x2028 || c.toNat == 0x2029

end Emend.Text
