import Emend.Text.Utf8

/-!
# Base 64

Bytes written with 64 characters, six bits each. `decode?` skips characters that are none of these and
stops at the filling that completes a group of four; a group that stays incomplete spells no bytes.
-/

namespace Emend.Base64

/-- The digits in the order of their values. -/
def digits : List Char := "ABCDEFGHIJKLMNOPQRSTUVWXYZabcdefghijklmnopqrstuvwxyz0123456789+/".toList

/-- The value of a digit. -/
def digit? (c : Char) : Option Nat := digits.findIdx? (· = c)

/-- The bytes of a group of up to four digits. -/
def groupBytes : List Nat → Bytes
  | [a, b] => [(a * 4 + b / 16).toUInt8]
  | [a, b, c] => [(a * 4 + b / 16).toUInt8, (b * 16 + c / 4).toUInt8]
  | [a, b, c, d] => [(a * 4 + b / 16).toUInt8, (b * 16 + c / 4).toUInt8, (c * 64 + d).toUInt8]
  | _ => []

/-- Reads digits after those of the group at hand, `fillings` being the number of equals signs since
the last of them. -/
def read (group : List Nat) (fillings : Nat) : Text → Option Bytes
  | [] => if group.isEmpty then some [] else none
  | c :: t =>
    if c = '=' then
      if 2 ≤ group.length ∧ 4 ≤ group.length + fillings + 1 then some (groupBytes group)
      else read group (if 2 ≤ group.length then fillings + 1 else fillings) t
    else match digit? c with
      | none => read group fillings t
      | some d =>
        if group.length = 3 then (read [] 0 t).map (groupBytes (group ++ [d]) ++ ·)
        else read (group ++ [d]) 0 t

/-- The bytes that a text spells. -/
def decode? (t : Text) : Option Bytes := read [] 0 t

example : decode? "aGk=".toList = some [0x68, 0x69] := by decide +kernel

end Emend.Base64
