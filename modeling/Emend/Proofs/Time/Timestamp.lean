import Emend.Proofs.Text.Decimal
import Emend.Proofs.Time.Calendar
import Emend.Time.Timestamp

/-!
# Reading back timestamps

A timestamp that the checks of a field let through lies in the years 1 to 9999, and its offset is a whole
number of minutes, less than a day (`isProper_of_check`). Such a timestamp is read back from its text
(`check_text`): date, time of day, fraction and offset are each written with the number of digits that
the reader takes, and the character behind them ends them.
-/

namespace Emend.Timestamp

open Emend.Text (decimal)

/-! ## Writing and reading the parts -/

theorem exists_twoDigits {n : Nat} (h : n < 100) :
    ∃ a b, decimal 2 n = [a, b] ∧ twoDigits? a b = some n := by
  refine ⟨Nat.digitChar (n / 10), Nat.digitChar (n % 10), Text.decimal_two h, ?_⟩
  have hdigits : ∀ c ∈ decimal 2 n, c.isDigit = true := fun c hc => Text.isDigit_of_mem_decimal hc
  have hvalue := Text.digits?_decimal 2 n
  rw [Text.decimal_two h] at hdigits hvalue
  rw [twoDigits?, if_pos ⟨hdigits _ (by simp), hdigits _ (by simp)⟩, hvalue]

theorem readDate_dateText {d : Date} (hd : d.isValid = true) (hlow : 0 ≤ d.year)
    (hhigh : d.year ≤ 9999) (r : Text) : readDate (dateText ['-'] d ++ r) = some (d, r) := by
  obtain ⟨hmonth, hmonth', hday, hday'⟩ := Date.day_le_of_isValid hd
  obtain ⟨a, b, hcentury, ha⟩ := exists_twoDigits (by omega : d.year.toNat / 100 < 100)
  obtain ⟨c, e, hyear, hc⟩ := exists_twoDigits (by omega : d.year.toNat % 100 < 100)
  obtain ⟨f, g, hmonthText, hf⟩ := exists_twoDigits (by omega : d.month < 100)
  obtain ⟨i, j, hdayText, hi⟩ := exists_twoDigits (by omega : d.day < 100)
  have hwhole : ((d.year.toNat / 100 : Nat) : Int) * 100 + (d.year.toNat % 100 : Nat) = d.year := by
    omega
  rw [dateText, Text.decimal_four, hcentury, hyear, hmonthText, hdayText]
  simp only [List.cons_append, List.nil_append, readDate, ha, hc, hf, hi, Option.bind_eq_bind,
    Option.bind_some]
  rw [hwhole]
  exact if_pos hd

/-- The text does not go on with another digit or a fraction. -/
def EndsTime (r : Text) : Prop :=
  ∀ c ∈ r.head?, c.isDigit = false ∧ c ≠ '.' ∧ c ≠ ',' ∧ c ≠ ':'

theorem readFraction_text {n : Nat} (h : n < 1000000) {r : Text} (hr : EndsTime r) :
    readFraction ((if n = 0 then [] else '.' :: decimal 6 n) ++ r) = some (n, r) := by
  by_cases hzero : n = 0
  · rw [if_pos hzero, List.nil_append, hzero]
    cases r with
    | nil => rfl
    | cons c r =>
        obtain ⟨-, hpoint, hcomma, -⟩ := hr c rfl
        rw [readFraction, if_neg (by simp [hpoint, hcomma])]
  · have hlength : (decimal 6 n).length = 6 := Text.length_decimal (by omega) (by omega)
    have hspan : (decimal 6 n ++ r).takeWhile Char.isDigit = decimal 6 n := by
      rw [List.takeWhile_append_of_pos fun c hc => Text.isDigit_of_mem_decimal hc]
      cases r with
      | nil => simp
      | cons c r => simp [(hr c rfl).1]
    have hne : (decimal 6 n).isEmpty = false := by
      rw [List.isEmpty_eq_false_iff, ← List.length_pos_iff]
      omega
    have hsix : (decimal 6 n).take 6 = decimal 6 n := List.take_of_length_le (by omega)
    rw [if_neg hzero, List.cons_append, readFraction, if_pos (by simp)]
    simp only [hspan, hne, hsix, Text.digits?_decimal, hlength]
    simp [hlength]

theorem readTime_text {s n : Nat} (hs : s < 86400) (hn : n < 1000000) {r : Text} (hr : EndsTime r) :
    readTime (clockText [':'] s ++ (if n = 0 then [] else '.' :: decimal 6 n) ++ r) =
      some (s * micro + n, r) := by
  obtain ⟨a, b, hhour, ha⟩ := exists_twoDigits (by omega : s / 3600 < 100)
  obtain ⟨c, d, hminute, hc⟩ := exists_twoDigits (by omega : s / 60 % 60 < 100)
  obtain ⟨e, f, hsecond, he⟩ := exists_twoDigits (by omega : s % 60 < 100)
  have hfraction := readFraction_text hn hr
  have hwhole : ((s / 3600 : Nat) : Int) * 3600 + (s / 60 % 60 : Nat) * 60 + (s % 60 : Nat) = s := by
    omega
  rw [clockText, hhour, hminute, hsecond]
  simp only [List.cons_append, List.nil_append, readTime, ha, hc, he, hfraction,
    Option.bind_eq_bind, Option.bind_some]
  rw [if_neg (by omega), if_neg (by omega), hwhole]
  rfl

theorem offset?_minutes {sign s : Int} (hwhole : s % 60 = 0) (hday : s.natAbs < 86400)
    (hsign : sign * (s.natAbs : Int) = s) :
    offset? sign (some (s.natAbs / 60 / 60)) (some (s.natAbs / 60 % 60)) = some s := by
  have htotal : ((s.natAbs / 60 / 60 : Nat) : Int) * 3600 + (s.natAbs / 60 % 60 : Nat) * 60 =
      s.natAbs := by omega
  simp only [offset?, Option.bind_eq_bind, Option.bind_some, htotal]
  rw [if_pos ⟨by omega, by rw [daySeconds]; omega⟩, hsign]

theorem readOffset_text {o : Option Int} (h : ∀ s ∈ o, s % 60 = 0 ∧ s.natAbs < 86400) :
    readOffset (offsetText o) = some o := by
  cases o with
  | none => rfl
  | some s =>
      obtain ⟨hwhole, hday⟩ := h s rfl
      by_cases hzero : s = 0
      · rw [hzero]
        rfl
      · obtain ⟨a, b, hhour, ha⟩ := exists_twoDigits (by omega : s.natAbs / 60 / 60 < 100)
        obtain ⟨c, d, hminute, hc⟩ := exists_twoDigits (by omega : s.natAbs / 60 % 60 < 100)
        simp only [offsetText, if_neg hzero, hhour, hminute, List.cons_append, List.nil_append]
        by_cases hneg : s < 0
        · have hsign : -1 * (s.natAbs : Int) = s := by omega
          simp [readOffset, hneg, ha, hc, offset?_minutes hwhole hday hsign]
        · have hsign : 1 * (s.natAbs : Int) = s := by omega
          simp [readOffset, hneg, ha, hc, offset?_minutes hwhole hday hsign]

theorem endsTime_offsetText (o : Option Int) : EndsTime (offsetText o) := by
  intro c hc
  cases o with
  | none => cases hc
  | some s =>
      rw [offsetText] at hc
      split at hc
      · obtain rfl := Option.some.inj hc
        decide
      · obtain rfl := Option.some.inj hc
        split <;> decide

/-! ## Timestamps of fields -/

/-- The timestamp lies in the years of four digits, and its offset is a whole number of minutes, less
than a day. -/
structure IsProper (t : Timestamp) : Prop where
  year : 1 ≤ t.date.year ∧ t.date.year ≤ 9999
  offset : ∀ s ∈ t.offset, s % 60 = 0 ∧ s.natAbs < 86400

/-- What the clock shows is the date, the second of the day and the fraction of the second. -/
theorem wall_eq (t : Timestamp) :
    t.date.toDays * daySeconds * micro + ((t.secondOfDay : Int) * micro + t.fraction) = t.wall := by
  have hdays : t.wall / (daySeconds * micro) = t.wall / micro / daySeconds := by
    rw [Int.mul_comm, Int.ediv_ediv_of_nonneg (by decide)]
  rw [date, Date.toDays_ofDays, secondOfDay, fraction, hdays, daySeconds, micro]
  omega

theorem ofDateTime?_text {t : Timestamp} (h : t.IsProper) : ofDateTime? t.text = some t := by
  obtain ⟨⟨hlow, hhigh⟩, hoffset⟩ := h
  have hsecond : t.secondOfDay < 86400 := by
    rw [secondOfDay, daySeconds]
    omega
  have hfraction : t.fraction < 1000000 := by
    rw [fraction, micro]
    omega
  have htext : t.text = dateText ['-'] t.date ++ 'T' :: (clockText [':'] t.secondOfDay ++
      (if t.fraction = 0 then [] else '.' :: decimal 6 t.fraction) ++ offsetText t.offset) := by
    simp only [text, List.append_assoc, List.cons_append]
  have hvalid : t.date.isValid = true := Date.isValid_ofDays _
  rw [htext, ofDateTime?, readDate_dateText hvalid (by omega) hhigh]
  simp only [Option.bind_eq_bind, Option.bind_some]
  rw [if_neg (by decide), readTime_text hsecond hfraction (endsTime_offsetText _)]
  simp only [Option.bind_some, readOffset_text hoffset, wall_eq]
  rfl

/-- **A timestamp is read back from its text.** -/
theorem check_text {t : Timestamp} (h : t.IsProper) : check (.text t.text) = .ok t := by
  rw [check, ofDateTime?_text h]
  exact if_pos h.year.1

/-! ## What the checks let through -/

theorem lt_of_twoDigits? {a b : Char} {n : Nat} (h : twoDigits? a b = some n) : n < 100 := by
  rw [twoDigits?] at h
  split at h
  · exact Text.lt_of_digits? h
  · cases h

theorem readDate_bounds {t r : Text} {d : Date} (h : readDate t = some (d, r)) :
    d.isValid = true ∧ 0 ≤ d.year ∧ d.year ≤ 9999 := by
  rw [readDate.eq_def] at h
  split at h
  · obtain ⟨century, hcentury, h⟩ := Option.bind_eq_some_iff.mp h
    obtain ⟨year, hyear, h⟩ := Option.bind_eq_some_iff.mp h
    obtain ⟨month, -, h⟩ := Option.bind_eq_some_iff.mp h
    obtain ⟨day, -, h⟩ := Option.bind_eq_some_iff.mp h
    have hcentury := lt_of_twoDigits? hcentury
    have hyear := lt_of_twoDigits? hyear
    obtain ⟨hvalid, h⟩ := Option.ite_none_right_eq_some.mp h
    obtain ⟨rfl, -⟩ := Prod.mk.inj (Option.some.inj h)
    exact ⟨hvalid, by dsimp only; omega, by dsimp only; omega⟩
  · cases h

theorem readFraction_lt {t r : Text} {n : Nat} (h : readFraction t = some (n, r)) : n < 1000000 := by
  rw [readFraction.eq_def] at h
  split at h
  · split at h
    · dsimp only at h
      split at h
      · cases h
      · obtain ⟨m, hm, heq⟩ := Option.map_eq_some_iff.mp h
        obtain ⟨rfl, -⟩ := Prod.mk.inj heq
        have hlt := Text.lt_of_digits? hm
        -- fewer than six digits are filled up with zeros
        generalize hlength : (List.take 6 _).length = k at hlt ⊢
        have hk : k ≤ 6 := by
          rw [← hlength, List.length_take]
          omega
        calc m * 10 ^ (6 - k) < 10 ^ k * 10 ^ (6 - k) :=
              Nat.mul_lt_mul_of_pos_right hlt (Nat.pow_pos (by omega))
          _ = 10 ^ 6 := by rw [← Nat.pow_add, Nat.add_sub_cancel' hk]
    · obtain ⟨rfl, -⟩ := Prod.mk.inj (Option.some.inj h)
      omega
  · obtain ⟨rfl, -⟩ := Prod.mk.inj (Option.some.inj h)
    omega

theorem readTime_bounds {t r : Text} {m : Int} (h : readTime t = some (m, r)) :
    0 ≤ m ∧ m < daySeconds * micro := by
  rw [daySeconds, micro]
  rw [readTime.eq_def] at h
  split at h
  · obtain ⟨hour, -, h⟩ := Option.bind_eq_some_iff.mp h
    obtain ⟨minute, -, h⟩ := Option.bind_eq_some_iff.mp h
    split at h
    · cases h
    · rename_i hbounds
      split at h
      · obtain ⟨second, -, h⟩ := Option.bind_eq_some_iff.mp h
        split at h
        · cases h
        · obtain ⟨⟨fraction, rest⟩, hfraction, h⟩ := Option.bind_eq_some_iff.mp h
          obtain ⟨rfl, -⟩ := Prod.mk.inj (Option.some.inj h)
          have hlt := readFraction_lt hfraction
          rw [micro]
          omega
      · cases h
      · obtain ⟨rfl, -⟩ := Prod.mk.inj (Option.some.inj h)
        rw [micro]
        omega
  · cases h

theorem offset?_bounds {sign s : Int} (hsign : sign = 1 ∨ sign = -1) {h m : Option Nat}
    (hs : offset? sign h m = some s) : s % 60 = 0 ∧ s.natAbs < 86400 := by
  obtain ⟨hours, -, hs⟩ := Option.bind_eq_some_iff.mp hs
  obtain ⟨minutes, -, hs⟩ := Option.bind_eq_some_iff.mp hs
  obtain ⟨⟨-, hday⟩, hs⟩ := Option.ite_none_right_eq_some.mp hs
  rw [daySeconds] at hday
  obtain rfl := Option.some.inj hs
  rcases hsign with rfl | rfl <;> omega

theorem readOffset_bounds {t : Text} {o : Option Int} (h : readOffset t = some o) :
    ∀ s ∈ o, s % 60 = 0 ∧ s.natAbs < 86400 := by
  rw [readOffset.eq_def] at h
  split at h
  · obtain rfl := Option.some.inj h
    simp
  · obtain rfl := Option.some.inj h
    simp
  · obtain rfl := Option.some.inj h
    simp
  · obtain ⟨sign, hsign, h⟩ := Option.bind_eq_some_iff.mp h
    have hcases : sign = 1 ∨ sign = -1 := by
      split at hsign
      · exact Or.inl (Option.some.inj hsign).symm
      · split at hsign
        · exact Or.inr (Option.some.inj hsign).symm
        · cases hsign
    intro s hs
    split at h
    · obtain ⟨s', hs', rfl⟩ := Option.map_eq_some_iff.mp h
      obtain rfl := Option.some.inj hs
      exact offset?_bounds hcases hs'
    · obtain ⟨s', hs', rfl⟩ := Option.map_eq_some_iff.mp h
      obtain rfl := Option.some.inj hs
      exact offset?_bounds hcases hs'
    · cases h
  · cases h

/-- What the clock shows comes before the year 10000. -/
def IsBounded (t : Timestamp) : Prop :=
  t.wall < Date.tooLate * (daySeconds * micro) ∧ ∀ s ∈ t.offset, s % 60 = 0 ∧ s.natAbs < 86400

theorem isBounded_of_ofDateTime? {x : Text} {t : Timestamp} (h : ofDateTime? x = some t) :
    t.IsBounded := by
  obtain ⟨⟨d, rest⟩, hdate, h⟩ := Option.bind_eq_some_iff.mp h
  obtain ⟨hvalid, -, hyear⟩ := readDate_bounds hdate
  have hdays := (Date.toDays_lt_iff hvalid).mpr hyear
  dsimp only at h
  split at h
  · cases h
  · split at h
    · cases h
    · obtain ⟨⟨m, rest⟩, htime, h⟩ := Option.bind_eq_some_iff.mp h
      obtain ⟨o, hoffset, h⟩ := Option.bind_eq_some_iff.mp h
      obtain rfl := Option.some.inj h
      obtain ⟨-, hday⟩ := readTime_bounds htime
      refine ⟨?_, readOffset_bounds hoffset⟩
      simp only [daySeconds, micro] at *
      omega

theorem isBounded_of_ofDate? {x : Text} {t : Timestamp} (h : ofDate? x = some t) : t.IsBounded := by
  obtain ⟨⟨d, rest⟩, hdate, h⟩ := Option.bind_eq_some_iff.mp h
  obtain ⟨hvalid, -, hyear⟩ := readDate_bounds hdate
  have hdays := (Date.toDays_lt_iff hvalid).mpr hyear
  cases rest with
  | nil =>
      obtain rfl := Option.some.inj h
      refine ⟨?_, by simp⟩
      simp only [daySeconds, micro]
      omega
  | cons c rest => cases h

theorem isBounded_of_ofMicros? {n : Int} {t : Timestamp} (h : ofMicros? n = some t) :
    t.IsBounded := by
  obtain ⟨⟨-, hsecond⟩, h⟩ := Option.ite_none_right_eq_some.mp h
  obtain rfl := Option.some.inj h
  refine ⟨?_, ?_⟩
  · simp only [secondRange, micro, Date.tooLate, daySeconds] at *
    omega
  · intro s hs
    obtain rfl := Option.some.inj hs
    decide

theorem isBounded_of_ofReal? {r : Real} {t : Timestamp} (h : ofReal? r = some t) : t.IsBounded := by
  obtain ⟨⟨num, den⟩, -, h⟩ := Option.bind_eq_some_iff.mp h
  obtain ⟨micros, -, h⟩ := Option.bind_eq_some_iff.mp h
  exact isBounded_of_ofMicros? h

theorem isBounded_of_ofDigits? {x : Text} {t : Timestamp} (h : ofDigits? x = some t) :
    t.IsBounded := by
  rw [ofDigits?.eq_def] at h
  split at h
  dsimp only at h
  split at h
  · obtain ⟨n, -, h⟩ := Option.bind_eq_some_iff.mp h
    exact isBounded_of_ofMicros? h
  · obtain ⟨n, -, h⟩ := Option.bind_eq_some_iff.mp h
    obtain ⟨e, -, h⟩ := Option.bind_eq_some_iff.mp h
    exact isBounded_of_ofReal? h
  · cases h

/-- Behind the year 0 a bounded timestamp is proper. -/
theorem IsBounded.isProper {t u : Timestamp} (h : t.IsBounded) (hu : afterYearZero t = .ok u) :
    u.IsProper := by
  rw [afterYearZero] at hu
  split at hu
  · rename_i hyear
    obtain rfl := Except.ok.inj hu
    obtain ⟨hwall, hoffset⟩ := h
    refine ⟨⟨hyear, Date.year_ofDays_le ?_⟩, hoffset⟩
    exact Int.ediv_lt_of_lt_mul (by decide) hwall
  · cases hu

theorem exists_of_elim {o : Option Timestamp} {t : Timestamp}
    (h : o.elim (.error .timeOutOfRange) afterYearZero = .ok t) :
    ∃ u, o = some u ∧ afterYearZero u = .ok t := by
  cases o with
  | none => cases h
  | some u => exact ⟨u, rfl, h⟩

theorem isProper_of_checkReal {r : Real} {t : Timestamp} (h : checkReal r = .ok t) : t.IsProper := by
  obtain ⟨u, hu, h⟩ := exists_of_elim h
  exact (isBounded_of_ofReal? hu).isProper h

/-- **What the check of a field lets through is proper.** -/
theorem isProper_of_check {v : Value} {t : Timestamp} (h : check v = .ok t) : t.IsProper := by
  rw [check.eq_def] at h
  split at h
  · rename_i x
    split at h
    · rename_i u hu
      refine IsBounded.isProper ?_ h
      rw [Option.orElse_eq_or, Option.orElse_eq_or] at hu
      rcases Option.or_eq_some_iff.mp hu with hu | ⟨-, hu⟩
      · exact isBounded_of_ofDateTime? hu
      · rcases Option.or_eq_some_iff.mp hu with hu | ⟨-, hu⟩
        · exact isBounded_of_ofDigits? hu
        · exact isBounded_of_ofDate? hu
    · cases h
  · rw [checkInt] at h
    split at h
    · obtain ⟨u, hu, h⟩ := exists_of_elim h
      exact (isBounded_of_ofMicros? hu).isProper h
    · dsimp only at h
      split at h
      · exact isProper_of_checkReal h
      · cases h
  · exact isProper_of_checkReal h
  · cases h
  · cases h

end Emend.Timestamp
