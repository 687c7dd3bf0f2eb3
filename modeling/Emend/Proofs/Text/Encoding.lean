import Emend.Text.Utf8

/-!
# Reading back what was encoded

A text is read back from its bytes. The reader takes the bytes of each character from the state between
two characters to the same state again, whatever bytes follow, so the law for a text is an induction on
its characters.

The other way round, bytes that the reader accepts are the bytes of the text it answers. A character is
completed only by bytes in the ranges that the reader names, and those are the bytes that the writer
chooses for its code point.
-/

namespace Emend.Utf8

theorem toNat_toUInt8 {n : Nat} (h : n < 256) : n.toUInt8.toNat = n := by
  simpa using h

/-- A character is no surrogate and lies below the end of the code points. -/
theorem toNat_bounds (c : Char) : c.toNat < 0xD800 ∨ 0xDFFF < c.toNat ∧ c.toNat < 0x110000 := c.valid

/-! ## One byte -/

/-- A byte that may follow, and is not the last, is added to the character under way. -/
theorem scan_continue (pos : Nat) {p : Pending} {b : UInt8} (bs : Bytes)
    (hrange : p.low ≤ b.toNat ∧ b.toNat ≤ p.high) (howed : 1 < p.owed) :
    scan pos (some p) (b :: bs) =
      scan (pos + 1)
        (some ⟨p.lead, p.seen + 1, p.owed - 1, p.code * 0x40 + (b.toNat - 0x80), 0x80, 0xBF⟩) bs := by
  rw [scan, if_pos hrange, if_neg (Nat.not_le.mpr howed)]

/-- A byte that may follow as the last completes the character. -/
theorem scan_complete (pos : Nat) {p : Pending} {b : UInt8} (bs : Bytes)
    (hrange : p.low ≤ b.toNat ∧ b.toNat ≤ p.high) (howed : p.owed = 1) :
    scan pos (some p) (b :: bs) =
      (Char.ofNat (p.code * 0x40 + (b.toNat - 0x80)) :: (scan (pos + 1) none bs).1,
        (scan (pos + 1) none bs).2) := by
  rw [scan, if_pos hrange, if_pos (Nat.le_of_eq howed)]

/-- A first byte of a longer character starts it. -/
theorem scan_lead (pos : Nat) {b : UInt8} {p : Pending} (bs : Bytes)
    (hp : Pending.ofLead? b = some p) (hb : 0x80 ≤ b.toNat) :
    scan pos none (b :: bs) = scan (pos + 1) (some p) bs := by
  rw [scan, if_neg (Nat.not_lt.mpr hb), hp]

/-! ## First bytes -/

theorem ofLead?_two {n : Nat} (hlow : 0x80 ≤ n) (hhigh : n < 0x800) :
    Pending.ofLead? (0xC0 + n / 0x40).toUInt8 =
      some ⟨(0xC0 + n / 0x40).toUInt8, 1, 1, n / 0x40, 0x80, 0xBF⟩ := by
  have hb : (0xC0 + n / 0x40).toUInt8.toNat = 0xC0 + n / 0x40 := toNat_toUInt8 (by omega)
  simp only [Pending.ofLead?, hb]
  rw [if_pos (by omega)]
  simp only [Nat.add_sub_cancel_left]

/-- The second byte's range leaves out overlong forms and surrogates, and nothing else. -/
theorem ofLead?_three {n : Nat} (hlow : 0x800 ≤ n) (hhigh : n < 0x10000)
    (hvalid : n < 0xD800 ∨ 0xDFFF < n) :
    ∃ low high, Pending.ofLead? (0xE0 + n / 0x1000).toUInt8 =
        some ⟨(0xE0 + n / 0x1000).toUInt8, 1, 2, n / 0x1000, low, high⟩ ∧
      low ≤ 0x80 + n / 0x40 % 0x40 ∧ 0x80 + n / 0x40 % 0x40 ≤ high := by
  have hb : (0xE0 + n / 0x1000).toUInt8.toNat = 0xE0 + n / 0x1000 := toNat_toUInt8 (by omega)
  simp only [Pending.ofLead?, hb]
  rw [if_neg (by omega)]
  by_cases hzero : n / 0x1000 = 0
  · rw [if_pos (by omega), hzero]
    exact ⟨_, _, rfl, by omega, by omega⟩
  · rw [if_neg (by omega)]
    by_cases hsurrogates : n / 0x1000 = 0xD
    · rw [if_pos (by omega), hsurrogates]
      exact ⟨_, _, rfl, by omega, by omega⟩
    · rw [if_neg (by omega), if_pos (by omega), Nat.add_sub_cancel_left]
      exact ⟨_, _, rfl, by omega, by omega⟩

/-- The second byte's range leaves out overlong forms and what lies past the last code point. -/
theorem ofLead?_four {n : Nat} (hlow : 0x10000 ≤ n) (hhigh : n < 0x110000) :
    ∃ low high, Pending.ofLead? (0xF0 + n / 0x40000).toUInt8 =
        some ⟨(0xF0 + n / 0x40000).toUInt8, 1, 3, n / 0x40000, low, high⟩ ∧
      low ≤ 0x80 + n / 0x1000 % 0x40 ∧ 0x80 + n / 0x1000 % 0x40 ≤ high := by
  have hb : (0xF0 + n / 0x40000).toUInt8.toNat = 0xF0 + n / 0x40000 := toNat_toUInt8 (by omega)
  simp only [Pending.ofLead?, hb]
  rw [if_neg (by omega), if_neg (by omega), if_neg (by omega), if_neg (by omega)]
  by_cases hzero : n / 0x40000 = 0
  · rw [if_pos (by omega), hzero]
    exact ⟨_, _, rfl, by omega, by omega⟩
  · rw [if_neg (by omega)]
    by_cases hlast : n / 0x40000 = 4
    · rw [if_neg (by omega), if_pos (by omega), hlast]
      exact ⟨_, _, rfl, by omega, by omega⟩
    · rw [if_pos (by omega), Nat.add_sub_cancel_left]
      exact ⟨_, _, rfl, by omega, by omega⟩

/-! ## Characters and texts -/

/-- The bytes of a character of two bytes are read as that character. -/
theorem scan_two (pos : Nat) {c : Char} (bs : Bytes) (hlow : 0x80 ≤ c.toNat) (hhigh : c.toNat < 0x800) :
    scan pos none ((0xC0 + c.toNat / 0x40).toUInt8 :: (0x80 + c.toNat % 0x40).toUInt8 :: bs) =
      (c :: (scan (pos + 2) none bs).1, (scan (pos + 2) none bs).2) := by
  have hb : (0xC0 + c.toNat / 0x40).toUInt8.toNat = 0xC0 + c.toNat / 0x40 := toNat_toUInt8 (by omega)
  have hlast : (0x80 + c.toNat % 0x40).toUInt8.toNat = 0x80 + c.toNat % 0x40 :=
    toNat_toUInt8 (by omega)
  have hcode : c.toNat / 0x40 * 0x40 + (0x80 + c.toNat % 0x40 - 0x80) = c.toNat := by omega
  rw [scan_lead pos _ (ofLead?_two hlow hhigh) (by omega),
    scan_complete _ _ (by dsimp only; omega) rfl]
  simp only [hlast, hcode, Char.ofNat_toNat]

/-- The bytes of a character of three bytes are read as that character. -/
theorem scan_three (pos : Nat) {c : Char} (bs : Bytes) (hlow : 0x800 ≤ c.toNat)
    (hhigh : c.toNat < 0x10000) :
    scan pos none ((0xE0 + c.toNat / 0x1000).toUInt8 :: (0x80 + c.toNat / 0x40 % 0x40).toUInt8 ::
        (0x80 + c.toNat % 0x40).toUInt8 :: bs) =
      (c :: (scan (pos + 3) none bs).1, (scan (pos + 3) none bs).2) := by
  have hvalid := toNat_bounds c
  have hb : (0xE0 + c.toNat / 0x1000).toUInt8.toNat = 0xE0 + c.toNat / 0x1000 :=
    toNat_toUInt8 (by omega)
  have hsecond : (0x80 + c.toNat / 0x40 % 0x40).toUInt8.toNat = 0x80 + c.toNat / 0x40 % 0x40 :=
    toNat_toUInt8 (by omega)
  have hlast : (0x80 + c.toNat % 0x40).toUInt8.toNat = 0x80 + c.toNat % 0x40 :=
    toNat_toUInt8 (by omega)
  have hcode : (c.toNat / 0x1000 * 0x40 + (0x80 + c.toNat / 0x40 % 0x40 - 0x80)) * 0x40 +
      (0x80 + c.toNat % 0x40 - 0x80) = c.toNat := by omega
  obtain ⟨low, high, hlead, hrange⟩ := ofLead?_three hlow hhigh (by omega)
  rw [scan_lead pos _ hlead (by omega), scan_continue _ _ (by dsimp only; omega) (by dsimp only; omega),
    scan_complete _ _ (by dsimp only; omega) rfl]
  simp only [hsecond, hlast, hcode, Char.ofNat_toNat]

/-- The bytes of a character of four bytes are read as that character. -/
theorem scan_four (pos : Nat) {c : Char} (bs : Bytes) (hlow : 0x10000 ≤ c.toNat) :
    scan pos none ((0xF0 + c.toNat / 0x40000).toUInt8 :: (0x80 + c.toNat / 0x1000 % 0x40).toUInt8 ::
        (0x80 + c.toNat / 0x40 % 0x40).toUInt8 :: (0x80 + c.toNat % 0x40).toUInt8 :: bs) =
      (c :: (scan (pos + 4) none bs).1, (scan (pos + 4) none bs).2) := by
  have hvalid := toNat_bounds c
  have hb : (0xF0 + c.toNat / 0x40000).toUInt8.toNat = 0xF0 + c.toNat / 0x40000 :=
    toNat_toUInt8 (by omega)
  have hsecond : (0x80 + c.toNat / 0x1000 % 0x40).toUInt8.toNat = 0x80 + c.toNat / 0x1000 % 0x40 :=
    toNat_toUInt8 (by omega)
  have hthird : (0x80 + c.toNat / 0x40 % 0x40).toUInt8.toNat = 0x80 + c.toNat / 0x40 % 0x40 :=
    toNat_toUInt8 (by omega)
  have hlast : (0x80 + c.toNat % 0x40).toUInt8.toNat = 0x80 + c.toNat % 0x40 :=
    toNat_toUInt8 (by omega)
  have hcode : ((c.toNat / 0x40000 * 0x40 + (0x80 + c.toNat / 0x1000 % 0x40 - 0x80)) * 0x40 +
      (0x80 + c.toNat / 0x40 % 0x40 - 0x80)) * 0x40 + (0x80 + c.toNat % 0x40 - 0x80) = c.toNat := by
    omega
  obtain ⟨low, high, hlead, hrange⟩ := ofLead?_four hlow (by omega)
  rw [scan_lead pos _ hlead (by omega), scan_continue _ _ (by dsimp only; omega) (by dsimp only; omega),
    scan_continue _ _ (by dsimp only; omega) (by dsimp only; omega),
    scan_complete _ _ (by dsimp only; omega) rfl]
  simp only [hsecond, hthird, hlast, hcode, Char.ofNat_toNat]

/-- The bytes of a character are read as that character, from wherever they stand. -/
theorem scan_encodeChar (pos : Nat) (c : Char) (bs : Bytes) :
    ∃ pos', scan pos none (encodeChar c ++ bs) =
      (c :: (scan pos' none bs).1, (scan pos' none bs).2) := by
  rw [encodeChar]
  by_cases hone : c.toNat < 0x80
  · have hb : c.toNat.toUInt8.toNat = c.toNat := toNat_toUInt8 (by omega)
    refine ⟨pos + 1, ?_⟩
    simp only [if_pos hone, List.cons_append, List.nil_append]
    rw [scan, hb, if_pos hone, Char.ofNat_toNat]
  · by_cases htwo : c.toNat < 0x800
    · simp only [if_neg hone, if_pos htwo]
      exact ⟨pos + 2, scan_two pos bs (Nat.not_lt.mp hone) htwo⟩
    · by_cases hthree : c.toNat < 0x10000
      · simp only [if_neg hone, if_neg htwo, if_pos hthree]
        exact ⟨pos + 3, scan_three pos bs (Nat.not_lt.mp htwo) hthree⟩
      · simp only [if_neg hone, if_neg htwo, if_neg hthree]
        exact ⟨pos + 4, scan_four pos bs (Nat.not_lt.mp hthree)⟩

theorem scan_encode (pos : Nat) (t : Text) : scan pos none (encode t) = (t, none, none) := by
  induction t generalizing pos with
  | nil => rfl
  | cons c t ih =>
      obtain ⟨pos', hchar⟩ := scan_encodeChar pos c (encode t)
      have hbytes : encode (c :: t) = encodeChar c ++ encode t := List.flatMap_cons
      rw [hbytes, hchar, ih]

/-- **A text is read back from its bytes.** -/
theorem decode_encode (t : Text) : decode (encode t) = .ok t := by
  rw [decode, scan_encode]

/-! ## From the bytes of a text -/

variable {pos : Nat} {p : Pending} {b : UInt8} {bs : Bytes} {t : Text}

theorem toNat_ofNat {n : Nat} (h : n < 0xD800 ∨ 0xDFFF < n ∧ n < 0x110000) :
    (Char.ofNat n).toNat = n := by
  unfold Char.ofNat
  rw [dif_pos h]
  rfl

theorem toUInt8_of_toNat_eq {n : Nat} (h : b.toNat = n) : n.toUInt8 = b := by
  rw [← h]
  simp

/-- What the first byte of a longer character tells: how many bytes are owed, the top of the code point,
and a range for the second byte that rules out overlong forms, surrogates and what lies past the last
code point. -/
theorem ofLead?_eq_some {lead : UInt8} {seen owed code low high : Nat}
    (h : Pending.ofLead? b = some ⟨lead, seen, owed, code, low, high⟩) :
    (owed = 1 ∧ b.toNat = 0xC0 + code ∧ 2 ≤ code ∧ code < 0x20 ∧ low = 0x80 ∧ high = 0xBF) ∨
    (owed = 2 ∧ b.toNat = 0xE0 + code ∧ code < 0x10 ∧ 0x80 ≤ low ∧ high ≤ 0xBF ∧
      (0 < code ∨ 0xA0 ≤ low) ∧ (code ≠ 0xD ∨ high ≤ 0x9F)) ∨
    owed = 3 ∧ b.toNat = 0xF0 + code ∧ code < 5 ∧ 0x80 ≤ low ∧ high ≤ 0xBF ∧
      (0 < code ∨ 0x90 ≤ low) ∧ (code < 4 ∨ high ≤ 0x8F) := by
  unfold Pending.ofLead? at h
  simp only [] at h
  repeat' split at h
  all_goals
    simp only [Option.some.injEq, Pending.mk.injEq, reduceCtorEq] at h
  all_goals omega

/-- A character under way that is read to its end goes on with a byte of its range. -/
theorem scan_some_eq (h : scan pos (some p) bs = (t, none, none)) :
    ∃ b bs', bs = b :: bs' ∧ p.low ≤ b.toNat ∧ b.toNat ≤ p.high ∧
      if p.owed ≤ 1 then ∃ t', t = Char.ofNat (p.code * 0x40 + (b.toNat - 0x80)) :: t' ∧
        scan (pos + 1) none bs' = (t', none, none)
      else scan (pos + 1)
        (some ⟨p.lead, p.seen + 1, p.owed - 1, p.code * 0x40 + (b.toNat - 0x80), 0x80, 0xBF⟩) bs' =
          (t, none, none) := by
  cases bs with
  | nil =>
      rw [scan] at h
      cases h
  | cons b bs =>
      rw [scan] at h
      split at h
      · rename_i hrange
        refine ⟨b, bs, rfl, hrange.1, hrange.2, ?_⟩
        split at h
        · rename_i howed
          rw [if_pos howed]
          obtain ⟨ht, hrest⟩ := Prod.mk.inj h
          exact ⟨_, ht.symm, Prod.ext rfl hrest⟩
        · rename_i howed
          rwa [if_neg howed]
      · cases h

/-- The byte that completes a character. -/
theorem scan_last_eq (howed : p.owed = 1) (h : scan pos (some p) bs = (t, none, none)) :
    ∃ b bs' t', bs = b :: bs' ∧ p.low ≤ b.toNat ∧ b.toNat ≤ p.high ∧
      t = Char.ofNat (p.code * 0x40 + (b.toNat - 0x80)) :: t' ∧
      scan (pos + 1) none bs' = (t', none, none) := by
  obtain ⟨b, bs', hbs, hlow, hhigh, hrest⟩ := scan_some_eq h
  rw [if_pos (Nat.le_of_eq howed)] at hrest
  obtain ⟨t', ht, hscan⟩ := hrest
  exact ⟨b, bs', t', hbs, hlow, hhigh, ht, hscan⟩

/-- A byte that a character goes on behind. -/
theorem scan_next_eq (howed : 1 < p.owed) (h : scan pos (some p) bs = (t, none, none)) :
    ∃ b bs', bs = b :: bs' ∧ p.low ≤ b.toNat ∧ b.toNat ≤ p.high ∧
      scan (pos + 1)
        (some ⟨p.lead, p.seen + 1, p.owed - 1, p.code * 0x40 + (b.toNat - 0x80), 0x80, 0xBF⟩) bs' =
          (t, none, none) := by
  obtain ⟨b, bs', hbs, hlow, hhigh, hrest⟩ := scan_some_eq h
  rw [if_neg (Nat.not_le.mpr howed)] at hrest
  exact ⟨b, bs', hbs, hlow, hhigh, hrest⟩

theorem encodeChar_of_two (b₁ b₂ : UInt8) {n : Nat} (hlow : 0x80 ≤ n) (hhigh : n < 0x800)
    (h₁ : b₁.toNat = 0xC0 + n / 0x40) (h₂ : b₂.toNat = 0x80 + n % 0x40) :
    encodeChar (Char.ofNat n) = [b₁, b₂] := by
  simp only [encodeChar, toNat_ofNat (n := n) (by omega)]
  rw [if_neg (by omega), if_pos hhigh, toUInt8_of_toNat_eq h₁, toUInt8_of_toNat_eq h₂]

theorem encodeChar_of_three (b₁ b₂ b₃ : UInt8) {n : Nat} (hlow : 0x800 ≤ n) (hhigh : n < 0x10000)
    (hvalid : n < 0xD800 ∨ 0xDFFF < n) (h₁ : b₁.toNat = 0xE0 + n / 0x1000)
    (h₂ : b₂.toNat = 0x80 + n / 0x40 % 0x40) (h₃ : b₃.toNat = 0x80 + n % 0x40) :
    encodeChar (Char.ofNat n) = [b₁, b₂, b₃] := by
  simp only [encodeChar, toNat_ofNat (n := n) (by omega)]
  rw [if_neg (by omega), if_neg (by omega), if_pos hhigh, toUInt8_of_toNat_eq h₁,
    toUInt8_of_toNat_eq h₂, toUInt8_of_toNat_eq h₃]

theorem encodeChar_of_four (b₁ b₂ b₃ b₄ : UInt8) {n : Nat} (hlow : 0x10000 ≤ n) (hhigh : n < 0x110000)
    (h₁ : b₁.toNat = 0xF0 + n / 0x40000) (h₂ : b₂.toNat = 0x80 + n / 0x1000 % 0x40)
    (h₃ : b₃.toNat = 0x80 + n / 0x40 % 0x40) (h₄ : b₄.toNat = 0x80 + n % 0x40) :
    encodeChar (Char.ofNat n) = [b₁, b₂, b₃, b₄] := by
  simp only [encodeChar, toNat_ofNat (n := n) (by omega)]
  rw [if_neg (by omega), if_neg (by omega), if_neg (by omega), toUInt8_of_toNat_eq h₁,
    toUInt8_of_toNat_eq h₂, toUInt8_of_toNat_eq h₃, toUInt8_of_toNat_eq h₄]

/-- Bytes that are read to their end begin with the bytes of the first character read. -/
theorem scan_none_eq (h : scan pos none bs = (t, none, none)) :
    bs = [] ∧ t = [] ∨ ∃ c bs' t' pos', bs = encodeChar c ++ bs' ∧ t = c :: t' ∧
      scan pos' none bs' = (t', none, none) := by
  cases bs with
  | nil =>
      rw [scan] at h
      exact .inl ⟨rfl, (congrArg Prod.fst h).symm⟩
  | cons b bs =>
      right
      rw [scan] at h
      split at h
      · rename_i hone
        obtain ⟨ht, hrest⟩ := Prod.mk.inj h
        have hcode : (Char.ofNat b.toNat).toNat = b.toNat := toNat_ofNat (by omega)
        refine ⟨Char.ofNat b.toNat, bs, _, pos + 1, ?_, ht.symm, Prod.ext rfl hrest⟩
        simp only [encodeChar, hcode, if_pos hone, toUInt8_of_toNat_eq rfl]
        rfl
      · split at h
        · cases h
        · rename_i p hlead
          obtain ⟨howed, hb, hcode⟩ | ⟨howed, hb, hcode⟩ | ⟨howed, hb, hcode⟩ := ofLead?_eq_some hlead
          · obtain ⟨b₂, bs', t', rfl, hlow, hhigh, rfl, hscan⟩ := scan_last_eq howed h
            refine ⟨_, bs', t', _, ?_, rfl, hscan⟩
            rw [encodeChar_of_two b b₂ (by omega) (by omega) (by omega) (by omega)]
            rfl
          · obtain ⟨b₂, bs₂, rfl, hlow₂, hhigh₂, h⟩ := scan_next_eq (by omega) h
            obtain ⟨b₃, bs', t', rfl, hlow, hhigh, rfl, hscan⟩ := scan_last_eq (by simp only [howed]) h
            simp only [] at hlow hhigh
            refine ⟨_, bs', t', _, ?_, rfl, hscan⟩
            simp only []
            rw [encodeChar_of_three b b₂ b₃ (by omega) (by omega) (by omega)
              (by omega) (by omega) (by omega)]
            rfl
          · obtain ⟨b₂, bs₂, rfl, hlow₂, hhigh₂, h⟩ := scan_next_eq (by omega) h
            obtain ⟨b₃, bs₃, rfl, hlow₃, hhigh₃, h⟩ := scan_next_eq (by simp only [howed]; omega) h
            obtain ⟨b₄, bs', t', rfl, hlow, hhigh, rfl, hscan⟩ := scan_last_eq (by simp only [howed]) h
            simp only [] at hlow₃ hhigh₃ hlow hhigh
            refine ⟨_, bs', t', _, ?_, rfl, hscan⟩
            simp only []
            rw [encodeChar_of_four b b₂ b₃ b₄ (by omega) (by omega)
              (by omega) (by omega) (by omega) (by omega)]
            rfl

theorem encode_of_scan (h : scan pos none bs = (t, none, none)) : encode t = bs := by
  induction t generalizing pos bs with
  | nil =>
      obtain ⟨rfl, -⟩ | ⟨c, bs', t', pos', -, ht, -⟩ := scan_none_eq h
      · rfl
      · cases ht
  | cons c t ih =>
      obtain ⟨-, ht⟩ | ⟨c', bs', t', pos', rfl, ht, hscan⟩ := scan_none_eq h
      · cases ht
      · obtain ⟨rfl, rfl⟩ := List.cons.inj ht
        have hbytes : encode (c :: t) = encodeChar c ++ encode t := List.flatMap_cons
        rw [hbytes, ih hscan]

/-- **Bytes that are read are the bytes of the text read.** -/
theorem encode_of_decode (h : decode bs = .ok t) : encode t = bs := by
  unfold decode at h
  split at h
  · cases h
  · cases h
  · rename_i hscan
    cases h
    exact encode_of_scan hscan

end Emend.Utf8
