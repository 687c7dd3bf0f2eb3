import Emend.Text.Basic

/-!
# Paths

A path is the list of names that lead from the root directory to a place. `Path.resolve` reads a text
as a path relative to a base: empty names and `.` mean nothing, and `..` goes one step up, at the root
nowhere.
-/

namespace Emend

/-- The names that lead from the root directory to a place. -/
abbrev Path := List Text

namespace Path

/-- The path as a text. -/
def text : Path → Text
  | [] => ['/']
  | ns => ns.flatMap ('/' :: ·)

/-- The text begins at the root directory. -/
def isAbsolute (t : Text) : Bool := t.head? = some '/'

/-- The name means the place at hand. -/
def isHere (n : Text) : Bool := n.isEmpty || n == ['.']

/-- The name means the directory that holds the place at hand. -/
def isUp (n : Text) : Bool := n == ['.', '.']

/-- Follows names from a base. -/
def follow (base : Path) : List Text → Path
  | [] => base
  | n :: ns =>
    if isHere n then follow base ns
    else if isUp n then follow base.dropLast ns
    else follow (base ++ [n]) ns

/-- The path that a text means, relative to a base. -/
def resolve (base : Path) (t : Text) : Path :=
  follow (if isAbsolute t then [] else base) (Text.splitOn '/' t)

/-- The names that lead from a place to a place at or below it. -/
def below? : (root place : Path) → Option Path
  | [], p => some p
  | _ :: _, [] => none
  | r :: rs, p :: ps => if r = p then below? rs ps else none

/-- The names with slashes between them. -/
def relativeText : Path → Text
  | [] => []
  | [n] => n
  | n :: ns => n ++ '/' :: relativeText ns

theorem below?_eq_some_iff {root place rest : Path} :
    below? root place = some rest ↔ place = root ++ rest := by
  induction root generalizing place with
  | nil => simp [below?, eq_comm]
  | cons r rs ih =>
    cases place with
    | nil => simp [below?]
    | cons p ps =>
      unfold below?
      split
      · rename_i h
        subst h
        simp [ih]
      · rename_i h
        simp [Ne.symm h]

end Path

end Emend
