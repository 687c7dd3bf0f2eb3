import Emend.Time.Calendar

/-!
# Days and dates

Counting days and naming dates are inverse to each other, and every day has a date of the calendar. The
calendar repeats after an era of 400 years. An era is cut into centuries, a century into cycles of four
years, and a cycle into years that begin in March; only the last pieces are longer or shorter by a day.
`Counted` names the pieces that a day falls into, and both functions are computed from the pieces.
-/

namespace Emend.Date

/-- The pieces of the calendar that a day falls into: its era, the century of the era, the cycle of the
century, the year of the cycle, and the days before it in that year. -/
structure Counted (n era century cycle year day : Int) : Prop where
  century_bounds : 0 ≤ century ∧ century ≤ 3
  cycle_bounds : 0 ≤ cycle ∧ cycle ≤ 24
  year_bounds : 0 ≤ year ∧ year ≤ 3
  day_nonneg : 0 ≤ day
  day_le : day ≤ 364 ∨ day = 365 ∧ year = 3
  /-- The last year of a century has a leap day only at the end of an era. -/
  leap : day = 365 → cycle = 24 → century = 3
  eq : n + 719468 = 146097 * era + 36524 * century + 1461 * cycle + 365 * year + day

theorem exists_counted (n : Int) : ∃ era century cycle year day,
    Counted n era century cycle year day := by
  obtain ⟨era, d, hd, hlow, hhigh⟩ : ∃ era d, n + 719468 = 146097 * era + d ∧ 0 ≤ d ∧ d ≤ 146096 :=
    ⟨(n + 719468) / 146097, (n + 719468) % 146097, by omega, by omega, by omega⟩
  -- the last century is longer by a day, and so is the last year of a cycle
  obtain ⟨century, r, hr, hcentury, hrlow, hrhigh⟩ : ∃ century r, d = 36524 * century + r ∧
      (0 ≤ century ∧ century ≤ 3) ∧ 0 ≤ r ∧ (r ≤ 36523 ∨ r = 36524 ∧ century = 3) := by
    by_cases hlast : d = 146096
    · exact ⟨3, 36524, by omega, by omega, by omega, by omega⟩
    · exact ⟨d / 36524, d % 36524, by omega, by omega, by omega, by omega⟩
  obtain ⟨cycle, t, ht, hcycle, htlow, hthigh⟩ : ∃ cycle t, r = 1461 * cycle + t ∧
      (0 ≤ cycle ∧ cycle ≤ 24) ∧ 0 ≤ t ∧ t ≤ 1460 :=
    ⟨r / 1461, r % 1461, by omega, by omega, by omega, by omega⟩
  obtain ⟨year, day, hyear, hbounds, hday, hdays⟩ : ∃ year day, t = 365 * year + day ∧
      (0 ≤ year ∧ year ≤ 3) ∧ 0 ≤ day ∧ (day ≤ 364 ∨ day = 365 ∧ year = 3) := by
    by_cases hlast : t = 1460
    · exact ⟨3, 365, by omega, by omega, by omega, by omega⟩
    · exact ⟨t / 365, t % 365, by omega, by omega, by omega, by omega⟩
  exact ⟨era, century, cycle, year, day, hcentury, hcycle, hbounds, hday, hdays, by omega, by omega⟩

variable {n era century cycle year day : Int}

/-- The year of the era, from the day of the era. -/
theorem Counted.yearOfEra (h : Counted n era century cycle year day) {d : Int}
    (hd : d = 36524 * century + 1461 * cycle + 365 * year + day) :
    (d - d / 1460 + d / 36524 - d / 146096) / 365 = 100 * century + 4 * cycle + year := by
  obtain ⟨hcentury, hcycle, hyear, hday, hdays, hleap, -⟩ := h
  have hcenturies : d / 36524 - d / 146096 = century := by
    by_cases hlast : d = 146096
    · rw [hlast]
      omega
    · have hwhole : d / 36524 = century := by omega
      omega
  -- the quotient by 1460 counts the cycles, and one more from some day of a cycle on
  have hlow : 25 * century + cycle ≤ d / 1460 := by omega
  have hhigh : d / 1460 ≤ 25 * century + cycle + 1 := by omega
  have hfirst : day = 0 → d / 1460 = 25 * century + cycle := by omega
  have hlast : day = 365 → d / 1460 = 25 * century + cycle + 1 := by omega
  generalize d / 1460 = e at *
  omega

/-- The month, counted from March, that a day of the year falls into. -/
def shiftedMonth (day : Int) : Int := (5 * day + 2) / 153

/-- The day of the year, from the day and the year of the era. -/
theorem Counted.dayOfYear (h : Counted n era century cycle year day) {d y : Int}
    (hd : d = 36524 * century + 1461 * cycle + 365 * year + day)
    (hy : y = 100 * century + 4 * cycle + year) : d - (365 * y + y / 4 - y / 100) = day := by
  obtain ⟨-, hcycle, hyear, -, -, -, -⟩ := h
  have hcycles : y / 4 = 25 * century + cycle := by omega
  have hcenturies : y / 100 = century := by omega
  rw [hcycles, hcenturies]
  omega

theorem shiftedMonth_bounds (h : Counted n era century cycle year day) :
    0 ≤ shiftedMonth day ∧ shiftedMonth day ≤ 11 := by
  obtain ⟨-, -, -, hday, hdays, -, -⟩ := h
  rw [shiftedMonth]
  omega

theorem ofDays_of_counted (h : Counted n era century cycle year day) :
    ofDays n =
      ⟨100 * century + 4 * cycle + year + era * 400 + (if 10 ≤ shiftedMonth day then 1 else 0),
        (if shiftedMonth day < 10 then shiftedMonth day + 3 else shiftedMonth day - 9).toNat,
        (day - (153 * shiftedMonth day + 2) / 5 + 1).toNat⟩ := by
  have hera : (n + 719468) / 146097 = era := by
    obtain ⟨hcentury, hcycle, hyear, hday, hdays, -, hn⟩ := h
    omega
  have hdayOfEra : n + 719468 - era * 146097 =
      36524 * century + 1461 * cycle + 365 * year + day := by
    have hn := h.eq
    omega
  have hmonth : (if shiftedMonth day < 10 then shiftedMonth day + 3 else shiftedMonth day - 9) ≤ 2 ↔
      10 ≤ shiftedMonth day := by
    have hbounds := shiftedMonth_bounds h
    split <;> omega
  rw [ofDays]
  simp only [hera, hdayOfEra, h.yearOfEra rfl, h.dayOfYear rfl rfl]
  simp only [show (5 * day + 2) / 153 = shiftedMonth day from rfl, hmonth]

theorem toDays_of_counted (h : Counted n era century cycle year day) {d : Date}
    (hyear : d.year = 100 * century + 4 * cycle + year + era * 400 + (if d.month ≤ 2 then 1 else 0))
    (hday : (((153 * ((d.month + 9) % 12) + 2) / 5 + d.day - 1 : Nat) : Int) = day) :
    toDays d = n := by
  have hshift : (if d.month ≤ 2 then d.year - 1 else d.year) =
      100 * century + 4 * cycle + year + era * 400 := by
    split at hyear <;> rename_i hmonth
    · rw [if_pos hmonth]
      omega
    · rw [if_neg hmonth]
      omega
  rw [toDays]
  simp only [hshift, hday]
  obtain ⟨hcentury, hcycle, hbounds, -, -, -, hn⟩ := h
  have hera : (100 * century + 4 * cycle + year + era * 400) / 400 = era := by omega
  have hrest : 100 * century + 4 * cycle + year + era * 400 - era * 400 =
      100 * century + 4 * cycle + year := by omega
  have hcycles : (100 * century + 4 * cycle + year) / 4 = 25 * century + cycle := by omega
  have hcenturies : (100 * century + 4 * cycle + year) / 100 = century := by omega
  rw [hera, hrest, hcycles, hcenturies]
  omega

/-- The days before the month, which are among the days before the day itself. -/
theorem firstOfMonth_le (h : Counted n era century cycle year day) :
    (153 * shiftedMonth day + 2) / 5 ≤ day ∧ day - (153 * shiftedMonth day + 2) / 5 ≤ 30 := by
  have hday := h.day_nonneg
  rw [shiftedMonth]
  omega

/-- **A day is counted back from its date.** -/
theorem toDays_ofDays (n : Int) : toDays (ofDays n) = n := by
  obtain ⟨era, century, cycle, year, day, h⟩ := exists_counted n
  obtain ⟨hlow, hhigh⟩ := shiftedMonth_bounds h
  obtain ⟨hfirst, -⟩ := firstOfMonth_le h
  rw [ofDays_of_counted h]
  apply toDays_of_counted h
  · simp only
    congr 1
    split <;> split <;> split <;> omega
  · have hindex : ((if shiftedMonth day < 10 then shiftedMonth day + 3
        else shiftedMonth day - 9).toNat + 9) % 12 = (shiftedMonth day).toNat := by
      split <;> omega
    simp only [hindex]
    omega

/-- A year of 366 days that begins in March ends in a leap year. -/
theorem Counted.isLeapYear (h : Counted n era century cycle year day) (hlast : day = 365) :
    isLeapYear (100 * century + 4 * cycle + year + era * 400 + 1) = true := by
  obtain ⟨hcentury, hcycle, hyear, -, hdays, hleap, -⟩ := h
  have hthird : year = 3 := by omega
  have hend := hleap hlast
  simp only [Date.isLeapYear, Bool.or_eq_true, Bool.and_eq_true, bne_iff_ne, beq_iff_eq]
  by_cases hcenturies : cycle = 24
  · right
    have := hend hcenturies
    omega
  · left
    omega

/-- **Every day has a date of the calendar.** -/
theorem isValid_ofDays (n : Int) : (ofDays n).isValid = true := by
  obtain ⟨era, century, cycle, year, day, h⟩ := exists_counted n
  obtain ⟨hlow, hhigh⟩ := shiftedMonth_bounds h
  obtain ⟨hfirst, hlength⟩ := firstOfMonth_le h
  have hleap := h.isLeapYear
  have hmonth : shiftedMonth day = (5 * day + 2) / 153 := rfl
  have hday : day ≤ 365 := by
    have hdays := h.day_le
    omega
  rw [ofDays_of_counted h]
  generalize shiftedMonth day = k at *
  simp only [isValid, decide_eq_true_eq]
  -- month by month: the last one is the only one whose length hangs on the year
  have hcases : k = 0 ∨ k = 1 ∨ k = 2 ∨ k = 3 ∨ k = 4 ∨ k = 5 ∨ k = 6 ∨ k = 7 ∨ k = 8 ∨ k = 9 ∨
      k = 10 ∨ k = 11 := by omega
  rcases hcases with rfl | rfl | rfl | rfl | rfl | rfl | rfl | rfl | rfl | rfl | rfl | rfl
  case' inr.inr.inr.inr.inr.inr.inr.inr.inr.inr.inr =>
    by_cases hlast : day = 365
    · simp [daysOfMonth, hleap hlast, hlast]
    have hshort : ∀ y, 28 ≤ daysOfMonth y 2 := by
      intro y
      rw [daysOfMonth, if_pos rfl]
      split <;> omega
    refine ⟨by simp, by simp, by omega, Nat.le_trans ?_ (hshort _)⟩
    omega
  all_goals
    simp [daysOfMonth]
    omega

/-! ## The last year of four digits -/

/-- The first day of the year 10000. -/
def tooLate : Int := 2932897

theorem day_le_of_isValid {d : Date} (h : d.isValid = true) :
    1 ≤ d.month ∧ d.month ≤ 12 ∧ 1 ≤ d.day ∧ d.day ≤ 31 := by
  simp only [isValid, decide_eq_true_eq] at h
  have hle : daysOfMonth d.year d.month ≤ 31 := by
    rw [daysOfMonth]
    split
    · split <;> omega
    · split <;> omega
  omega

/-- The days before a date in its year, which begins in March. -/
theorem daysBefore_bounds {d : Date} (h : d.isValid = true) :
    (d.month ≤ 2 → 306 ≤ (153 * ((d.month + 9) % 12) + 2) / 5 + d.day - 1) ∧
      (2 < d.month → (153 * ((d.month + 9) % 12) + 2) / 5 + d.day - 1 ≤ 305) ∧
      (153 * ((d.month + 9) % 12) + 2) / 5 + d.day - 1 ≤ 367 := by
  obtain ⟨hmonth, hmonth', hday, hday'⟩ := day_le_of_isValid h
  refine ⟨fun hearly => ?_, fun hlate => ?_, ?_⟩
  · have hindex : (d.month + 9) % 12 = d.month + 9 := by omega
    omega
  · have hindex : (d.month + 9) % 12 = d.month - 3 := by omega
    omega
  · omega

/-- Counting days keeps the dates up to the year 9999 apart from those behind it. -/
theorem toDays_lt_iff {d : Date} (h : d.isValid = true) : toDays d < tooLate ↔ d.year ≤ 9999 := by
  obtain ⟨hearly, hlate, hall⟩ := daysBefore_bounds h
  rw [toDays, tooLate]
  generalize (153 * ((d.month + 9) % 12) + 2) / 5 + d.day - 1 = before at *
  by_cases hmonth : d.month ≤ 2
  · have hbefore := hearly hmonth
    simp only [if_pos hmonth]
    omega
  · have hbefore := hlate (by omega)
    simp only [if_neg hmonth]
    omega

theorem year_ofDays_le {n : Int} (h : n < tooLate) : (ofDays n).year ≤ 9999 := by
  rw [← toDays_lt_iff (isValid_ofDays n), toDays_ofDays]
  exact h

end Emend.Date
