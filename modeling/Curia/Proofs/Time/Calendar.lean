import Curia.Time.Instant

/-!
Days and dates. An era of 400 years falls into centuries, these into groups of four years and these
into years; only the last year of a group has a leap day, save in the last group of a century that
does not end the era. So every day has a date that exists, and the date has the day.
-/

namespace Curia.Date

/-- The parts of an era that a day lies in: the century, the group of four years, the year of the
group and the day of the year, which begins in March. -/
structure Place (day : Int) (c q t u : Int) : Prop where
  century : 0 ≤ c ∧ c ≤ 3
  group : 0 ≤ q ∧ q ≤ 24
  year : 0 ≤ t ∧ t ≤ 3
  day_eq : day = 36524 * c + 1461 * q + 365 * t + u
  day_nonneg : 0 ≤ u
  leap : u ≤ 364 ∨ u = 365 ∧ t = 3 ∧ (q ≤ 23 ∨ c = 3)

theorem exists_place {day : Int} (h : 0 ≤ day) (h' : day ≤ 146096) :
    ∃ c q t u, Place day c q t u := by
  let c := min 3 (day / 36524)
  let q := (day - 36524 * c) / 1461
  let t := min 3 ((day - 36524 * c - 1461 * q) / 365)
  refine ⟨c, q, t, day - 36524 * c - 1461 * q - 365 * t, ?_⟩
  have hc : 0 ≤ c ∧ c ≤ 3 ∧ 0 ≤ day - 36524 * c ∧ (day - 36524 * c ≤ 36523 ∨
      c = 3 ∧ day - 36524 * c = 36524) := by omega
  have hq : 0 ≤ q ∧ q ≤ 24 := by omega
  have ht : 0 ≤ t ∧ t ≤ 3 := by omega
  refine ⟨by omega, hq, ht, by omega, by omega, ?_⟩
  omega

namespace Place

variable {day c q t u : Int}

theorem yearOfEra (h : Place day c q t u) :
    (day - day / 1460 + day / 36524 - day / 146096) / 365 = 100 * c + 4 * q + t := by
  obtain ⟨hc, hq, ht, hday, hu, hleap⟩ := h
  have hcentury : day / 36524 - day / 146096 = c := by
    by_cases hlast : day = 146096
    · omega
    · have hrest : 1461 * q + 365 * t + u ≤ 36523 := by omega
      omega
  -- the group is one short on some days, but not on the first day of a year, and on leap days it is
  obtain ⟨k, hgroup, hk⟩ : ∃ k, day / 1460 = 25 * c + q + k ∧ 0 ≤ u - k ∧ u - k ≤ 364 := by
    by_cases hfew : 24 * c + q + 365 * t + u < 1460
    · exact ⟨0, by omega, by omega⟩
    · exact ⟨1, by omega, by omega⟩
  have hsum : day - day / 1460 + day / 36524 - day / 146096 =
      365 * (100 * c + 4 * q + t) + (u - k) := by omega
  rw [hsum]
  omega

theorem dayOfYear (h : Place day c q t u) : day - (365 * (100 * c + 4 * q + t) +
    (100 * c + 4 * q + t) / 4 - (100 * c + 4 * q + t) / 100) = u := by
  obtain ⟨hc, hq, ht, rfl, hu, hleap⟩ := h
  omega

end Place

/-! ### Dates reckoned from March -/

/-- The date that many days after the first of March of a year. -/
def ofMarch (year : Int) (u : Int) : Date :=
  let m := (5 * u + 2) / 153
  let month := if m < 10 then m + 3 else m - 9
  ⟨if month ≤ 2 then year + 1 else year, month.toNat, (u - (153 * m + 2) / 5 + 1).toNat⟩

theorem toDays_ofMarch (year : Int) {u : Int} (h : 0 ≤ u) (h' : u ≤ 365) :
    (ofMarch year u).toDays = 146097 * year.fdiv 400 + (365 * (year - 400 * year.fdiv 400) +
      (year - 400 * year.fdiv 400) / 4 - (year - 400 * year.fdiv 400) / 100 + u) - 719468 := by
  generalize hm : (5 * u + 2) / 153 = m
  have hrange : 0 ≤ m ∧ m ≤ 11 := by omega
  have hday : 0 ≤ u - (153 * m + 2) / 5 := by omega
  by_cases hten : m < 10
  · have hdate : ofMarch year u =
        ⟨year, (m + 3).toNat, (u - (153 * m + 2) / 5 + 1).toNat⟩ := by
      simp only [ofMarch, hm, if_pos hten]
      rw [if_neg (by omega)]
    have hmonth : ¬(m + 3).toNat ≤ 2 := by omega
    have hback : (((m + 3).toNat : Int) + 9) % 12 = m := by omega
    simp only [hdate, toDays, if_neg hmonth, hback]
    omega
  · have hdate : ofMarch year u =
        ⟨year + 1, (m - 9).toNat, (u - (153 * m + 2) / 5 + 1).toNat⟩ := by
      simp only [ofMarch, hm, if_neg hten]
      rw [if_pos (by omega)]
    have hmonth : (m - 9).toNat ≤ 2 := by omega
    have hback : (((m - 9).toNat : Int) + 9) % 12 = m := by omega
    simp only [hdate, toDays, if_pos hmonth, hback, Int.add_sub_cancel]
    omega

/-- The leap day is the last day of a year that ends with February. -/
theorem isValid_ofMarch {year u : Int} (h : 0 ≤ u)
    (hleap : u ≤ 364 ∨ u = 365 ∧ isLeapYear (year + 1) = true) :
    (ofMarch year u).isValid = true := by
  generalize hm : (5 * u + 2) / 153 = m
  by_cases hfebruary : m = 11
  · subst hfebruary
    rcases hleap with hu | ⟨hu, hyear⟩
    · have hlength : 28 ≤ monthLength (year + 1) 2 := by
        rw [monthLength]
        split <;> omega
      simp [ofMarch, hm, isValid]
      omega
    · simp [ofMarch, isValid, monthLength, hu, hyear]
  · have hrange : m = 0 ∨ m = 1 ∨ m = 2 ∨ m = 3 ∨ m = 4 ∨ m = 5 ∨ m = 6 ∨ m = 7 ∨ m = 8 ∨ m = 9 ∨
        m = 10 := by omega
    rcases hrange with rfl | rfl | rfl | rfl | rfl | rfl | rfl | rfl | rfl | rfl | rfl <;>
      simp [ofMarch, hm, isValid, monthLength] <;> omega

/-! ### The date of a day -/

/-- The year of an era in which there are so many leap days. -/
theorem isLeapYear_of_place {day c q u : Int} (h : Place day c q 3 u) (hleap : q ≤ 23 ∨ c = 3)
    (era : Int) : isLeapYear (100 * c + 4 * q + 3 + 400 * era + 1) = true := by
  obtain ⟨hc, hq, -, -, -, -⟩ := h
  have hfour : (100 * c + 4 * q + 3 + 400 * era + 1) % 4 = 0 := by omega
  by_cases hhundred : (100 * c + 4 * q + 3 + 400 * era + 1) % 100 = 0
  · have hlast : (100 * c + 4 * q + 3 + 400 * era + 1) % 400 = 0 := by omega
    simp [isLeapYear, hfour, hlast]
  · simp [isLeapYear, hfour, hhundred]

/-- What the date of a day is made of. -/
theorem exists_ofDays_eq (days : Int) : ∃ era c q t u,
    Place (days + 719468 - 146097 * era) c q t u ∧
      ofDays days = ofMarch (100 * c + 4 * q + t + 400 * era) u := by
  have hera : 0 ≤ days + 719468 - 146097 * (days + 719468).fdiv 146097 ∧
      days + 719468 - 146097 * (days + 719468).fdiv 146097 ≤ 146096 := by
    rw [Int.fdiv_eq_ediv_of_nonneg _ (by decide)]
    omega
  obtain ⟨c, q, t, u, hplace⟩ := exists_place hera.1 hera.2
  refine ⟨_, c, q, t, u, hplace, ?_⟩
  simp only [ofDays, hplace.yearOfEra, hplace.dayOfYear, ofMarch]

theorem toDays_ofDays (days : Int) : (ofDays days).toDays = days := by
  obtain ⟨era, c, q, t, u, hplace, hdate⟩ := exists_ofDays_eq days
  obtain ⟨hc, hq, ht, hday, hu, hleap⟩ := hplace
  have hera : (100 * c + 4 * q + t + 400 * era).fdiv 400 = era := by
    rw [Int.fdiv_eq_ediv_of_nonneg _ (by decide)]
    omega
  rw [hdate, toDays_ofMarch _ hu (by omega), hera]
  omega

theorem isValid_ofDays (days : Int) : (ofDays days).isValid = true := by
  obtain ⟨era, c, q, t, u, hplace, hdate⟩ := exists_ofDays_eq days
  rw [hdate]
  refine isValid_ofMarch hplace.day_nonneg ?_
  rcases hplace.leap with hu | ⟨hu, rfl, hleap⟩
  · exact .inl hu
  · exact .inr ⟨hu, isLeapYear_of_place hplace hleap era⟩

theorem lt_of_isValid {d : Date} (h : d.isValid = true) : d.month < 100 ∧ d.day < 100 := by
  simp only [isValid, Bool.and_eq_true, decide_eq_true_eq] at h
  have hlength : monthLength d.year d.month ≤ 31 := by
    unfold monthLength
    repeat' split
    all_goals decide
  omega

/-- The years of the days that can be represented. -/
theorem year_ofDays {days : Int} (h : (Date.mk (-262143) 1 1).toDays ≤ days)
    (h' : days < (Date.mk 262143 1 1).toDays) :
    -262143 ≤ (ofDays days).year ∧ (ofDays days).year ≤ 262142 := by
  have hfirst : (Date.mk (-262143) 1 1).toDays = -96465292 := by decide
  have hend : (Date.mk 262143 1 1).toDays = 95026237 := by decide
  rw [hfirst] at h
  rw [hend] at h'
  obtain ⟨era, c, q, t, u, ⟨hc, hq, ht, hday, hu, hleap⟩, hdate⟩ := exists_ofDays_eq days
  have hyear : (ofDays days).year = 100 * c + 4 * q + t + 400 * era + if u < 306 then 0 else 1 := by
    rw [hdate, ofMarch]
    simp only
    split <;> split <;> split <;> omega
  have hc : c = 0 ∨ c = 1 ∨ c = 2 ∨ c = 3 := by omega
  rw [hyear]
  split <;> rcases hc with rfl | rfl | rfl | rfl <;> omega

end Curia.Date
