import Emend.Proofs.Disk.Files
import Emend.Proofs.Text.Streams
import Emend.Text.Classes

/-!
# Texts byte by byte

Patterns are compared byte by byte, each byte shown as a character. What is told of bytes here is told of
texts: equal bytes are those of equal texts, bytes at the front those of a text at the front, and a byte of
ASCII is a character of the text.
-/

namespace Emend

namespace Utf8

variable {c : Char} {b : UInt8} {t u : Text}

/-- The bytes of a character beyond ASCII are beyond ASCII. -/
theorem le_of_mem_encodeChar (h : 0x80 ≤ c.toNat) (hb : b ∈ encodeChar c) : 0x80 ≤ b.toNat := by
  have hbounds := toNat_bounds c
  have hbyte : ∀ n, 0x80 ≤ n → n < 256 → 0x80 ≤ n.toUInt8.toNat := by
    intro n hlow hhigh
    rwa [toNat_toUInt8 hhigh]
  rw [encodeChar, if_neg (by omega)] at hb
  split at hb
  · rcases List.mem_pair.mp hb with rfl | rfl <;> exact hbyte _ (by omega) (by omega)
  · split at hb
    · simp only [List.mem_cons, List.not_mem_nil, or_false] at hb
      rcases hb with rfl | rfl | rfl <;> exact hbyte _ (by omega) (by omega)
    · simp only [List.mem_cons, List.not_mem_nil, or_false] at hb
      rcases hb with rfl | rfl | rfl | rfl <;> exact hbyte _ (by omega) (by omega)

/-- A byte of ASCII is the character that it shows. -/
theorem eq_of_mem_encodeChar (hb : b ∈ encodeChar c) (hascii : b.toNat < 0x80) :
    Char.ofNat b.toNat = c := by
  by_cases h : c.toNat < 0x80
  · rw [encodeChar, if_pos h] at hb
    rw [List.mem_singleton.mp hb, toNat_toUInt8 (by omega), Char.ofNat_toNat]
  · exact absurd (le_of_mem_encodeChar (by omega) hb) (by omega)

theorem encode_append (t u : Text) : encode (t ++ u) = encode t ++ encode u := List.flatMap_append

theorem encode_inj : encode t = encode u ↔ t = u := by
  constructor
  · intro h
    have hdecode := decode_encode u
    rw [← h, decode_encode t] at hdecode
    exact Except.ok.inj hdecode
  · exact congrArg encode

/-- No text is cut inside a character. -/
theorem prefix_of_encode (h : encode t <+: encode u) : t <+: u := by
  obtain ⟨rest, hrest⟩ := h
  have hscan := scan_encode 0 u
  rw [← hrest] at hscan
  obtain ⟨t', p, v, hfirst, -, rfl⟩ := scan_append hscan
  rw [scan_encode] at hfirst
  cases hfirst
  exact List.prefix_append t v

end Utf8

namespace Text

variable {c : Char} {t u : Text}

theorem byteChars_append (t u : Text) : byteChars (t ++ u) = byteChars t ++ byteChars u := by
  rw [byteChars, Utf8.encode_append, List.map_append]
  rfl

theorem toNat_byte (b : UInt8) : (Char.ofNat b.toNat).toNat = b.toNat := by
  have hbyte := b.toNat_lt
  exact Utf8.toNat_ofNat (.inl (by omega))

theorem byte_inj {b b' : UInt8} (h : Char.ofNat b.toNat = Char.ofNat b'.toNat) : b = b' :=
  UInt8.toNat_inj.mp ((toNat_byte b).symm.trans ((congrArg Char.toNat h).trans (toNat_byte b')))

theorem byteChars_inj : byteChars t = byteChars u ↔ t = u := by
  rw [byteChars, byteChars, List.map_inj_right fun _ _ => byte_inj, Utf8.encode_inj]

theorem prefix_of_byteChars (h : byteChars t <+: byteChars u) : t <+: u := by
  obtain ⟨rest, hrest⟩ := h
  obtain ⟨front, behind, hu, hfront, -⟩ := List.map_eq_append_iff.mp hrest.symm
  obtain rfl : front = Utf8.encode t := (List.map_inj_right fun _ _ => byte_inj).mp hfront
  exact Utf8.prefix_of_encode ⟨behind, hu.symm⟩

/-- A character of ASCII is among the bytes only if it is in the text. -/
theorem mem_of_mem_byteChars (h : c ∈ byteChars t) (hascii : c.toNat < 0x80) : c ∈ t := by
  obtain ⟨b, hb, rfl⟩ := List.mem_map.mp h
  rw [toNat_byte] at hascii
  obtain ⟨c, hc, hmem⟩ := List.mem_flatMap.mp hb
  rwa [Utf8.eq_of_mem_encodeChar hmem hascii]

theorem byteChars_slash : byteChars ['/'] = ['/'] := by decide

/-- A text ends in a slash if its bytes do. -/
theorem getLast?_of_byteChars (h : (byteChars t).getLast? = some '/') : t.getLast? = some '/' := by
  cases hlast : t.getLast? with
  | none =>
      rw [List.getLast?_eq_none_iff.mp hlast] at h
      cases h
  | some c =>
      obtain ⟨front, rfl⟩ := List.getLast?_eq_some_iff.mp hlast
      rw [byteChars_append, List.getLast?_append] at h
      cases hend : (byteChars [c]).getLast? with
      | none =>
          rw [List.getLast?_eq_none_iff, byteChars, List.map_eq_nil_iff] at hend
          exact absurd hend (Disk.encode_ne_nil (List.cons_ne_nil c []))
      | some b =>
          rw [hend] at h
          obtain rfl : b = '/' := Option.some.inj h
          have hmem := mem_of_mem_byteChars (List.mem_of_getLast? hend) (by decide)
          rw [List.mem_singleton.mp hmem]

end Text

end Emend
