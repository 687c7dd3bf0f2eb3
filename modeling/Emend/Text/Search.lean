import Emend.Text.Basic

/-!
# Searching a text from the left

`after? p t` reads the literal text `p` off the front of `t`. `hits` runs any such reader over a text
from the left and lists the spans it reads; the scan goes on behind a span, so spans never overlap.
-/

namespace Emend.Text

/-- What follows `p` in `t`, if `t` begins with `p`. -/
def after? : Text → Text → Option Text
  | [], t => some t
  | _ :: _, [] => none
  | p :: ps, c :: t => if p = c then after? ps t else none

/-- The part of a text from offset `start` up to, but not including, offset `stop`. -/
structure Span where
  start : Nat
  stop : Nat
  deriving DecidableEq, Repr

/-- The characters of `t` inside the span. -/
def Span.slice (s : Span) (t : Text) : Text := (t.drop s.start).take (s.stop - s.start)

/-- The spans that `read` finds in a text that starts at offset `pos`, after skipping `skip`
characters. Where `read` succeeds it answers what follows the span. -/
def hitsFrom (read : Text → Option Text) : (skip pos : Nat) → Text → List Span
  | _, _, [] => []
  | skip + 1, pos, _ :: t => hitsFrom read skip (pos + 1) t
  | 0, pos, c :: t =>
    match read (c :: t) with
    | none => hitsFrom read 0 (pos + 1) t
    | some rest =>
      let width := t.length + 1 - rest.length
      ⟨pos, pos + width⟩ :: hitsFrom read (width - 1) (pos + 1) t

/-- The spans of `t` that `read` finds from left to right, none overlapping the one before. -/
def hits (read : Text → Option Text) (t : Text) : List Span := hitsFrom read 0 0 t

theorem after?_eq_some_iff {p t r : Text} : after? p t = some r ↔ t = p ++ r := by
  induction p generalizing t with
  | nil => simp [after?, eq_comm]
  | cons a p ih =>
    cases t with
    | nil => simp [after?]
    | cons c t =>
      unfold after?
      split
      · rename_i h
        subst h
        simp [ih]
      · rename_i h
        simp [Ne.symm h]

example : hits (after? ['a', 'a']) ['a', 'a', 'a', 'b', 'a', 'a'] = [⟨0, 2⟩, ⟨4, 6⟩] := by decide

end Emend.Text
