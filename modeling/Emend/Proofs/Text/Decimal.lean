import Emend.Text.Digits
import Mathlib.Algebra.Group.Nat.Defs

/-!
# Reading back decimal digits

A number is written with a least number of digits. However many zeros stand in front, the digits spell
the number again (`digits?_decimal`), and where the number is small enough they are as many as asked for
(`length_decimal`).
-/

namespace Emend.Text

/-- A number with one more digit read behind its own. -/
def readDigit (n : Nat) (c : Char) : Option Nat := do
  let d ← hexDigit? c
  if d < 10 then some (n * 10 + d) else none

theorem digits?_eq_foldlM {t : Text} (h : t ≠ []) : digits? 10 t = t.foldlM readDigit 0 := by
  rw [digits?, if_neg (by simpa using h)]
  rfl

theorem readDigit_digitChar (n : Nat) {d : Nat} (h : d < 10) :
    readDigit n (Nat.digitChar d) = some (n * 10 + d) := by
  have hdigit : ∀ d < 10, hexDigit? (Nat.digitChar d) = some d := by decide
  rw [readDigit, hdigit d h]
  exact if_pos h

theorem toDigits_ne_nil (n : Nat) : Nat.toDigits 10 n ≠ [] := by
  rw [Nat.toDigits_eq_if (by omega)]
  split <;> simp

theorem foldlM_toDigits (n : Nat) : (Nat.toDigits 10 n).foldlM readDigit 0 = some n := by
  induction n using Nat.strongRecOn with
  | ind n ih =>
      rw [Nat.toDigits_eq_if (by omega)]
      split
      · rename_i h
        simp [readDigit_digitChar 0 h]
      · rename_i h
        -- the last digit is read behind the number that the others spell
        have hfront := ih (n / 10) (by omega)
        have hlast := readDigit_digitChar (n / 10) (Nat.mod_lt n (by omega : 0 < 10))
        rw [List.foldlM_append, hfront]
        show [Nat.digitChar (n % 10)].foldlM readDigit (n / 10) = some n
        rw [List.foldlM_cons, hlast]
        show some (n / 10 * 10 + n % 10) = some n
        congr 1
        omega

theorem foldlM_zeros (k : Nat) : (List.replicate k '0').foldlM readDigit 0 = some 0 := by
  induction k with
  | zero => rfl
  | succ k ih =>
      rw [List.replicate_succ, List.foldlM_cons]
      exact ih

/-- The digits of a number spell it, with any number of zeros in front. -/
theorem digits?_decimal (width n : Nat) : digits? 10 (decimal width n) = some n := by
  have hne : decimal width n ≠ [] := by
    intro h
    exact toDigits_ne_nil n (List.append_eq_nil_iff.mp h).2
  rw [digits?_eq_foldlM hne, decimal, padStart, ofNat, List.foldlM_append, foldlM_zeros]
  exact foldlM_toDigits n

theorem lt_of_foldlM {t : Text} {a n : Nat} (h : t.foldlM readDigit a = some n) :
    n < (a + 1) * 10 ^ t.length := by
  induction t generalizing a with
  | nil =>
      obtain rfl := Option.some.inj h
      simp
  | cons c t ih =>
      rw [List.foldlM_cons] at h
      obtain ⟨b, hread, hrest⟩ := Option.bind_eq_some_iff.mp h
      obtain ⟨d, -, hd⟩ := Option.bind_eq_some_iff.mp hread
      have hstep : b + 1 ≤ (a + 1) * 10 := by
        split at hd
        · obtain rfl := Option.some.inj hd
          omega
        · cases hd
      calc n < (b + 1) * 10 ^ t.length := ih hrest
        _ ≤ (a + 1) * 10 * 10 ^ t.length := Nat.mul_le_mul_right _ hstep
        _ = (a + 1) * 10 ^ (c :: t).length := by
          rw [List.length_cons, Nat.pow_succ, Nat.mul_assoc, Nat.mul_comm 10]

/-- Digits spell no more than nines would. -/
theorem lt_of_digits? {t : Text} {n : Nat} (h : digits? 10 t = some n) : n < 10 ^ t.length := by
  have hne : t ≠ [] := by
    rintro rfl
    cases h
  rw [digits?_eq_foldlM hne] at h
  simpa using lt_of_foldlM h

theorem length_decimal {width n : Nat} (hwidth : 0 < width) (h : n < 10 ^ width) :
    (decimal width n).length = width := by
  have hle := (Nat.length_toDigits_le_iff (by omega : 1 < 10) hwidth).mpr h
  simp only [decimal, padStart, ofNat, List.length_append, List.length_replicate]
  omega

theorem isDigit_of_mem_decimal {width n : Nat} {c : Char} (h : c ∈ decimal width n) :
    c.isDigit = true := by
  rcases List.mem_append.mp h with hzero | hdigit
  · rw [(List.mem_replicate.mp hzero).2]
    rfl
  · exact Nat.isDigit_of_mem_toDigits (by omega) (by omega) hdigit

/-- The last digit comes off the end. -/
theorem decimal_succ {width : Nat} (hwidth : 0 < width) (n : Nat) :
    decimal (width + 1) n = decimal width (n / 10) ++ [Nat.digitChar (n % 10)] := by
  have hlast : Nat.toDigits 10 n =
      if n < 10 then [n.digitChar] else Nat.toDigits 10 (n / 10) ++ [(n % 10).digitChar] :=
    Nat.toDigits_eq_if (by omega)
  simp only [decimal, padStart, ofNat]
  split at hlast
  · rename_i h
    have hzero : n / 10 = 0 := by omega
    rw [hlast, hzero, Nat.mod_eq_of_lt h, Nat.toDigits_zero]
    have hwidth' : width = (width - 1) + 1 := by omega
    rw [hwidth']
    simp [List.replicate_succ']
  · rw [hlast, List.length_append, List.length_singleton, Nat.add_sub_add_right, List.append_assoc]

theorem decimal_one {n : Nat} (h : n < 10) : decimal 1 n = [Nat.digitChar n] := by
  rw [decimal, padStart, ofNat, Nat.toDigits_of_lt_base h]
  rfl

theorem decimal_two {n : Nat} (h : n < 100) :
    decimal 2 n = [Nat.digitChar (n / 10), Nat.digitChar (n % 10)] := by
  rw [decimal_succ (by omega), decimal_one (by omega)]
  rfl

/-- Four digits are two and two. -/
theorem decimal_four (n : Nat) :
    decimal 4 n = decimal 2 (n / 100) ++ decimal 2 (n % 100) := by
  have htens : n % 100 / 10 = n / 10 % 10 := by omega
  have hones : n % 100 % 10 = n % 10 := by omega
  rw [decimal_succ (by omega), decimal_succ (by omega), Nat.div_div_eq_div_mul,
    decimal_two (by omega : n % 100 < 100), htens, hones, List.append_assoc]
  rfl

/-! ## Numbers with a sign -/

theorem ofInt_ne_nil (i : Int) : ofInt i ≠ [] := by
  cases i with
  | ofNat n => exact toDigits_ne_nil n
  | negSucc n => exact List.cons_ne_nil _ _

theorem minus_or_isDigit_of_mem_ofInt {i : Int} {c : Char} (h : c ∈ ofInt i) :
    c = '-' ∨ c.isDigit = true := by
  have hdigit : ∀ n, c ∈ ofNat n → c.isDigit = true := by
    intro n hn
    exact Nat.isDigit_of_mem_toDigits (by omega) (by omega) hn
  cases i with
  | ofNat n => exact .inr (hdigit n h)
  | negSucc n =>
      rcases List.mem_cons.mp h with rfl | h
      · exact .inl rfl
      · exact .inr (hdigit (n + 1) h)

end Emend.Text
