import Emend.Text.Basic

/-!
# Digits

Numbers written as text: decimal and hexadecimal digits with and without a least width.
-/

namespace Emend.Text

/-- The digits of `n` in base ten. -/
def ofNat (n : Nat) : Text := Nat.toDigits 10 n

/-- The digits of `i` in base ten, after a minus sign if it is negative. -/
def ofInt (i : Int) : Text :=
  match i with
  | .ofNat n => ofNat n
  | .negSucc n => '-' :: ofNat (n + 1)

/-- The text with enough copies of `c` in front to be at least `width` long. -/
def padStart (width : Nat) (c : Char) (t : Text) : Text := List.replicate (width - t.length) c ++ t

/-- At least `width` lower-case hexadecimal digits. -/
def hex (width n : Nat) : Text := padStart width '0' (Nat.toDigits 16 n)

/-- At least `width` decimal digits. -/
def decimal (width n : Nat) : Text := padStart width '0' (ofNat n)

/-- The value of a hexadecimal digit of either case. -/
def hexDigit? (c : Char) : Option Nat :=
  if '0' ≤ c ∧ c ≤ '9' then some (c.toNat - 0x30)
  else if 'a' ≤ c ∧ c ≤ 'f' then some (c.toNat - 0x61 + 10)
  else if 'A' ≤ c ∧ c ≤ 'F' then some (c.toNat - 0x41 + 10)
  else none

/-- The value of a text of digits in the given base; `none` if it holds anything else or nothing. -/
def digits? (base : Nat) (t : Text) : Option Nat :=
  if t.isEmpty then none
  else t.foldlM (fun n c => do
    let d ← hexDigit? c
    if d < base then some (n * base + d) else none) 0

/-- The code points of the digit zero in each script; the other nine digits follow it. -/
def decimalZeros : List Nat :=
   [0x30, 0x660, 0x6F0, 0x7C0, 0x966, 0x9E6, 0xA66, 0xAE6, 0xB66, 0xBE6, 0xC66, 0xCE6, 0xD66,
    0xDE6, 0xE50, 0xED0, 0xF20, 0x1040, 0x1090, 0x17E0, 0x1810, 0x1946, 0x19D0, 0x1A80, 0x1A90,
    0x1B50, 0x1BB0, 0x1C40, 0x1C50, 0xA620, 0xA8D0, 0xA900, 0xA9D0, 0xA9F0, 0xAA50, 0xABF0, 0xFF10,
    0x104A0, 0x10D30, 0x11066, 0x110F0, 0x11136, 0x111D0, 0x112F0, 0x11450, 0x114D0, 0x11650,
    0x116C0, 0x11730, 0x118E0, 0x11950, 0x11C50, 0x11D50, 0x11DA0, 0x16A60, 0x16AC0, 0x16B50,
    0x1D7CE, 0x1D7D8, 0x1D7E2, 0x1D7EC, 0x1D7F6, 0x1E140, 0x1E2F0, 0x1E950, 0x1FBF0]

/-- The value of a decimal digit of any script. -/
def decimalDigit? (c : Char) : Option Nat :=
  (decimalZeros.find? fun z => z ≤ c.toNat && c.toNat ≤ z + 9).map (c.toNat - ·)

/-- The value of a text of decimal digits of any script; `none` if it holds anything else or
nothing. -/
def decimalDigits? (t : Text) : Option Nat :=
  if t.isEmpty then none
  else t.foldlM (fun n c => (decimalDigit? c).map (n * 10 + ·)) 0

/-- The pieces with `sep` between them. -/
def joinWith (sep : Text) : List Text → Text
  | [] => []
  | [t] => t
  | t :: ts => t ++ sep ++ joinWith sep ts

theorem le_length_padStart (width : Nat) (c : Char) (t : Text) : width ≤ (padStart width c t).length := by
  simp [padStart]; omega

end Emend.Text
