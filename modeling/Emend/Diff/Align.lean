import Emend.Text.Basic

/-!
# Line diffs

`diff` aligns two texts line by line along a longest common subsequence of their lines. The lines
between two common ones are listed with all removals before all additions.

`lengthRows` tabulates the length of a longest common subsequence for every pair of tails of two
lists. The walk that picks the common lines runs over the two lists from their ends, so it runs on
the reversed lists; where dropping from either list keeps the length, it drops from the old one.
-/

namespace Emend.Diff

/-- What a diff says of a line. -/
inductive Kind where
  | unchanged
  | added
  | removed
  deriving DecidableEq, Repr

namespace Kind

/-- Every kind. -/
def all : List Kind := [unchanged, added, removed]

/-- The kind's name in files. -/
def name : Kind → String
  | unchanged => "unchanged"
  | added => "added"
  | removed => "removed"

/-- The kind of that name. -/
def ofName? (t : Text) : Option Kind := all.find? (·.name.toList = t)

end Kind

/-- A line with its number in the old and in the new text. A diff counts them from 1. -/
structure Line where
  kind : Kind
  text : Text
  oldNumber : Option Int := none
  newNumber : Option Int := none
  deriving DecidableEq, Repr

/-- How many lines a diff has of each kind. -/
structure Stats where
  added : Nat := 0
  removed : Nat := 0
  unchanged : Nat := 0
  deriving DecidableEq, Repr

/-- Some line was added or removed. -/
def Stats.isChanged (s : Stats) : Bool := s.added != 0 || s.removed != 0

/-- Counts the lines of each kind. -/
def stats (ls : List Line) : Stats where
  added := ls.countP (·.kind = .added)
  removed := ls.countP (·.kind = .removed)
  unchanged := ls.countP (·.kind = .unchanged)

section Common

variable {α : Type} [DecidableEq α]

/-- The row of the table for `x :: xs`, given the row `below` for `xs`: for every tail of `ys`, the
length of a longest common subsequence with `x :: xs`. -/
def lengthRow (x : α) : (ys : List α) → (below : List Nat) → List Nat
  | [], _ => [0]
  | y :: ys, below =>
    let row := lengthRow x ys below.tail
    let skipped := below.headD 0
    let matched := below.tail.headD 0
    (if x = y then matched + 1 else max skipped (row.headD 0)) :: row

/-- The rows of the table for all tails of `xs`, longest first. -/
def lengthRows : (xs ys : List α) → List (List Nat)
  | [], ys => [List.replicate (ys.length + 1) 0]
  | x :: xs, ys =>
    let rows := lengthRows xs ys
    lengthRow x ys (rows.headD []) :: rows

/-- The first two cells of a table along the two lists: the length after dropping from `xs`, and the
length after dropping from `ys`. -/
def stepLengths (rows : List (List Nat)) : Nat × Nat :=
  ((rows.tail.headD []).headD 0, ((rows.headD []).tail).headD 0)

/-- A longest common subsequence, read off the table `rows` of the two lists. -/
def walk : (xs ys : List α) → (rows : List (List Nat)) → List α
  | [], _, _ => []
  | _ :: _, [], _ => []
  | x :: xs, y :: ys, rows =>
    if x = y then x :: walk xs ys (rows.tail.map List.tail)
    else
      let (dropOld, dropNew) := stepLengths rows
      if dropNew ≤ dropOld then walk xs (y :: ys) rows.tail
      else walk (x :: xs) ys (rows.map List.tail)
termination_by xs ys => xs.length + ys.length

/-- The longest common subsequence of the two lists that the diff keeps. -/
def common (old new : List α) : List α :=
  let xs := old.reverse
  let ys := new.reverse
  (walk xs ys (lengthRows xs ys)).reverse

end Common

/-- Lists the lines of both texts along the common lines `keep`. `i` and `j` are the numbers of the
first old and the first new line. -/
def alongCommon (i j : Int) : (keep old new : List Text) → List Line
  | c :: keep, o :: old, n :: new =>
    if o = c ∧ n = c then
      ⟨.unchanged, c, some i, some j⟩ :: alongCommon (i + 1) (j + 1) keep old new
    else if o ≠ c then
      ⟨.removed, o, some i, none⟩ :: alongCommon (i + 1) j (c :: keep) old (n :: new)
    else ⟨.added, n, none, some j⟩ :: alongCommon i (j + 1) (c :: keep) (o :: old) new
  | c :: keep, o :: old, [] =>
    if o ≠ c then ⟨.removed, o, some i, none⟩ :: alongCommon (i + 1) j (c :: keep) old [] else []
  | c :: keep, [], n :: new => ⟨.added, n, none, some j⟩ :: alongCommon i (j + 1) (c :: keep) [] new
  | [], o :: old, new => ⟨.removed, o, some i, none⟩ :: alongCommon (i + 1) j [] old new
  | [], [], n :: new => ⟨.added, n, none, some j⟩ :: alongCommon i (j + 1) [] [] new
  | _, [], [] => []
termination_by _ old new => old.length + new.length

/-- The lines of a text that may be absent; an empty text has none. -/
def linesOf (t : Option Text) : List Text :=
  match t.getD [] with
  | [] => []
  | t => Text.lines t

/-- The diff from one text to another. -/
def diff (before after : Option Text) : List Line :=
  let old := linesOf before
  let new := linesOf after
  alongCommon 1 1 (common old new) old new

end Emend.Diff
