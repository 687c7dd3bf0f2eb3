import Emend.Diff.Align
import Emend.Text.Digits

/-!
# Showing a diff

A diff is shown with a heading that counts additions and removals and then a line per entry: the two
line numbers in columns of five, a sign for the kind, and the text. With a context limit, unchanged
lines further than that from every change are left out, and each stretch of them is marked by dots.
-/

namespace Emend.Diff

/-- The sign of a kind in front of a line. -/
def Kind.sign : Kind → Char
  | unchanged => ' '
  | added => '+'
  | removed => '-'

/-- A line number in its column. -/
def numberColumn (n : Option Int) : Text := Text.padStart 5 ' ' ((n.map Text.ofInt).getD [])

/-- A line of the diff as it is shown. -/
def Line.render (l : Line) : Text :=
  numberColumn l.oldNumber ++ ' ' :: numberColumn l.newNumber ++ ' ' :: l.kind.sign :: ' ' :: l.text

/-- The distance between two places. -/
def distance (i j : Nat) : Nat := max i j - min i j

/-- The places of the changed lines, the first line having place `i`. -/
def changedPlaces (i : Nat) : List Line → List Nat
  | [] => []
  | l :: ls =>
    if l.kind = .unchanged then changedPlaces (i + 1) ls else i :: changedPlaces (i + 1) ls

/-- Which lines are shown: changed ones, and those within `context` of a changed one. -/
def visible (context : Option Int) (ls : List Line) : List Bool :=
  match context with
  | none => ls.map fun _ => true
  | some k =>
    let places := changedPlaces 0 ls
    ls.zipIdx.map fun (l, i) =>
      l.kind != .unchanged || places.any fun j => decide ((distance i j : Int) ≤ k)

/-- The shown lines, with dots in place of each stretch of hidden ones. `skipping` tells that the
line before was hidden. -/
def renderLines (skipping : Bool) : List (Line × Bool) → List Text
  | [] => []
  | (l, true) :: ls => l.render :: renderLines false ls
  | (_, false) :: ls =>
    if skipping then renderLines true ls else "...".toList :: renderLines true ls

/-- The heading of a diff. -/
def Stats.heading (s : Stats) : Text :=
  '+' :: Text.ofNat s.added ++ " -".toList ++ Text.ofNat s.removed

/-- The diff as a text. -/
def render (context : Option Int) : List Line → Text
  | [] => "(no differences)".toList
  | ls =>
    Text.unlines ((stats ls).heading :: renderLines false (ls.zip (visible context ls)))

end Emend.Diff
