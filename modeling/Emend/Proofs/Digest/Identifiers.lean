import Emend.Git.Reference
import Emend.Proofs.Text.Encoding

/-!
# Identifiers in files

The identifier of an object is forty hexadecimal digits, none of them a capital letter. So it is read as
an identifier where it stands in a file, as the first word there, and means the same in lower case.
-/

namespace Emend

namespace Text

/-- A hexadecimal digit as identifiers are written in. -/
def IsLowerHex (c : Char) : Prop := (hexDigit? c).isSome = true ∧ isBlank c = false ∧ c.toLower = c

instance (c : Char) : Decidable (IsLowerHex c) := inferInstanceAs (Decidable (_ ∧ _))

theorem isLowerHex_digitChar {d : Nat} (h : d < 16) : IsLowerHex (Nat.digitChar d) := by
  have hdigits : ∀ d < 16, IsLowerHex (Nat.digitChar d) := by decide
  exact hdigits d h

theorem hex_two {n : Nat} (h : n < 256) : hex 2 n = [Nat.digitChar (n / 16), Nat.digitChar (n % 16)] := by
  rw [hex, padStart, Nat.toDigits_eq_if (by omega)]
  by_cases hone : n < 16
  · rw [if_pos hone, Nat.div_eq_of_lt hone, Nat.mod_eq_of_lt hone]
    rfl
  · rw [if_neg hone, Nat.toDigits_of_lt_base (show n / 16 < 16 by omega)]
    rfl

/-- A word at the front of a text, with a blank character behind it, is its first word. -/
theorem tokens_cons {w : Text} (hne : w ≠ []) (hw : ∀ c ∈ w, isBlank c = false) {b : Char}
    (hb : isBlank b = true) (t : Text) : ∃ ws, tokens (w ++ b :: t) = w :: ws := by
  induction w with
  | nil => exact absurd rfl hne
  | cons c w ih =>
      have hc : ¬ isBlank c = true := Bool.eq_false_iff.mp (hw c List.mem_cons_self)
      have hrest : ∀ d ∈ w, isBlank d = false := fun d hd => hw d (List.mem_cons_of_mem c hd)
      cases w with
      | nil =>
          rw [List.cons_append, List.nil_append, tokens.eq_def]
          dsimp only
          rw [if_neg hc, if_pos hb]
          exact ⟨_, rfl⟩
      | cons d w =>
          have hd : ¬ isBlank d = true := Bool.eq_false_iff.mp (hrest d List.mem_cons_self)
          obtain ⟨ws, hws⟩ := ih (List.cons_ne_nil d w) hrest
          rw [List.cons_append] at hws
          rw [List.cons_append, List.cons_append, tokens.eq_def]
          dsimp only
          rw [if_neg hc, if_neg hd, hws]
          exact ⟨ws, rfl⟩

end Text

namespace Digest

open Text

theorem length_bytes (s : State) : s.bytes.length = 20 := rfl

theorem length_flatMap_hex (bs : Bytes) : (bs.flatMap fun b => hex 2 b.toNat).length = 2 * bs.length := by
  induction bs with
  | nil => rfl
  | cons b bs ih =>
      rw [List.flatMap_cons, List.length_append, ih, hex_two b.toNat_lt, List.length_cons]
      simp only [List.length_cons, List.length_nil]
      omega

/-- **The digits of a digest**. -/
theorem hex_digits (s : State) : s.hex.length = 40 ∧ ∀ c ∈ s.hex, IsLowerHex c := by
  constructor
  · rw [State.hex, length_flatMap_hex, length_bytes]
  · intro c hc
    obtain ⟨b, -, hb⟩ := List.mem_flatMap.mp hc
    have hbyte : b.toNat < 256 := b.toNat_lt
    rw [hex_two hbyte, List.mem_cons, List.mem_singleton] at hb
    obtain rfl | rfl := hb
    · exact isLowerHex_digitChar (by omega)
    · exact isLowerHex_digitChar (Nat.mod_lt _ (by omega))

end Digest

namespace Git

open Text

variable {id : ObjectId}

/-- The text is an identifier as digests are written. -/
def IsWritten (id : ObjectId) : Prop := id.length = 40 ∧ ∀ c ∈ id, IsLowerHex c

theorem isWritten_id (c : Commit) : IsWritten c.id := Digest.hex_digits _

namespace IsWritten

theorem isId (h : IsWritten id) : Reference.isId id = true := by
  rw [Reference.isId, h.1, List.all_eq_true.mpr fun c hc => (h.2 c hc).1]
  rfl

/-- Lower case is how it is written already. -/
theorem map_toLower (h : IsWritten id) : id.map Char.toLower = id := by
  refine (List.map_congr_left fun c hc => (h.2 c hc).2.2).trans (List.map_id id)

/-- A file that begins with a line of the identifier holds it. -/
theorem read (h : IsWritten id) {fs : OwnFiles} {name rest : Text} (hname : Reference.isName name = true)
    (hfile : fs.lookup (splitOn '/' name) = some (Utf8.encode (id ++ '\n' :: rest))) :
    Reference.read fs name = .ok (.object id) := by
  have hne : id ≠ [] := by
    rintro rfl
    cases h.1
  have hkey : id ≠ "ref:".toList := by
    rintro rfl
    cases h.1
  obtain ⟨ws, hws⟩ := tokens_cons hne (fun c hc => (h.2 c hc).2.1) (b := '\n') rfl rest
  have hwords : (Utf8.decode (Utf8.encode (id ++ '\n' :: rest))).toOption.map tokens = some (id :: ws) := by
    rw [Utf8.decode_encode, ← hws]
    rfl
  rw [Reference.read, hname, hfile]
  dsimp only
  rw [hwords]
  dsimp only
  rw [if_neg hkey, if_pos h.isId]
  rfl

end IsWritten

end Git

end Emend
