import McpOperator.Time

namespace McpOperator.Instant

/-- A day by the era of four hundred years, the century, the group of four years, the year and the day
in which it lies. Years begin in March, so that a leap day is the last of its year. -/
structure Place where
  era : Int
  century : Nat
  quad : Nat
  year : Nat
  day : Nat
  century_le : century ≤ 3
  quad_le : quad ≤ 24
  year_le : year ≤ 3
  day_le : day ≤ 365
  leap : day = 365 → year = 3 ∧ (quad < 24 ∨ century = 3)

namespace Place

variable (p : Place)

def dayOfEra : Nat := 36524 * p.century + 1461 * p.quad + 365 * p.year + p.day

def yearOfEra : Nat := 100 * p.century + 4 * p.quad + p.year

def days : Int := p.era * 146097 + p.dayOfEra - 719468

def march : Nat := (5 * p.day + 2) / 153

def month : Nat := if p.march < 10 then p.march + 3 else p.march - 9

def dayOfMonth : Nat := p.day - (153 * p.march + 2) / 5 + 1

def civilYear : Int := p.era * 400 + p.yearOfEra + if p.march < 10 then 0 else 1

theorem exists_dayOfEra {n : Nat} (h : n < 146097) (era : Int) :
    ∃ p : Place, p.era = era ∧ p.dayOfEra = n := by
  have hcentury : n - 36524 * min (n / 36524) 3 < 36525 := by omega
  generalize hc : min (n / 36524) 3 = c at hcentury
  have hquad : n - 36524 * c - 1461 * ((n - 36524 * c) / 1461) < 1461 := by omega
  generalize hq : (n - 36524 * c) / 1461 = q at hquad
  generalize ht : min ((n - 36524 * c - 1461 * q) / 365) 3 = t
  let p : Place := ⟨era, c, q, t, n - 36524 * c - 1461 * q - 365 * t,
    by omega, by omega, by omega, by omega, by omega⟩
  refine ⟨p, rfl, ?_⟩
  simp only [p, dayOfEra]
  omega

theorem exists_days (days : Int) : ∃ p : Place, p.days = days := by
  let era := (days + 719468) / 146097
  obtain ⟨p, hera, hday⟩ :=
    exists_dayOfEra (n := (days + 719468 - era * 146097).toNat) (by omega) era
  refine ⟨p, ?_⟩
  rw [Place.days]
  omega

theorem dayOfEra_lt : p.dayOfEra < 146097 := by
  have := p.century_le
  have := p.quad_le
  have := p.year_le
  have := p.day_le
  have := p.leap
  rw [dayOfEra]
  omega

/-- The days that leap years add are taken away before days are divided into years. -/
theorem yearOfEra_eq : (p.dayOfEra - p.dayOfEra / 1460 + p.dayOfEra / 36524 -
    p.dayOfEra / 146096) / 365 = p.yearOfEra := by
  have hc := p.century_le
  have hq := p.quad_le
  have ht := p.year_le
  have hd := p.day_le
  have hl := p.leap
  unfold dayOfEra yearOfEra
  generalize p.century = c at *
  generalize p.quad = q at *
  generalize p.year = t at *
  generalize p.day = d at *
  by_cases hlast : c = 3 ∧ q = 24 ∧ t = 3 ∧ d = 365
  · obtain ⟨rfl, rfl, rfl, rfl⟩ := hlast
    rfl
  · have hquads : (36524 * c + 1461 * q + 365 * t + d) / 1460 =
        25 * c + q + (24 * c + q + 365 * t + d) / 1460 := by omega
    have hcenturies : (36524 * c + 1461 * q + 365 * t + d) / 36524 = c := by omega
    have heras : (36524 * c + 1461 * q + 365 * t + d) / 146096 = 0 := by omega
    rw [hquads, hcenturies, heras]
    omega

theorem march_le : p.march ≤ 11 := by
  have := p.day_le
  rw [march]
  omega

theorem civilFromDays_days : civilFromDays p.days = (p.civilYear, p.month, p.dayOfMonth) := by
  have hlt := p.dayOfEra_lt
  have hm := p.march_le
  have hera : (p.days + 719468) / 146097 = p.era := by unfold days; omega
  have hdoe : (p.days + 719468 - p.era * 146097).toNat = p.dayOfEra := by unfold days; omega
  have hday : p.dayOfEra - (365 * p.yearOfEra + p.yearOfEra / 4 - p.yearOfEra / 100) = p.day := by
    have := p.century_le
    have := p.quad_le
    have := p.year_le
    unfold dayOfEra yearOfEra
    omega
  rw [civilFromDays]
  simp only [hera, hdoe, yearOfEra_eq, hday]
  refine Prod.ext ?_ rfl
  unfold civilYear march at *
  dsimp only
  split <;> split <;> omega

theorem daysFromCivil_civil : daysFromCivil p.civilYear p.month p.dayOfMonth = p.days := by
  have hc := p.century_le
  have hq := p.quad_le
  have ht := p.year_le
  have hm := p.march_le
  have hstart : (153 * p.march + 2) / 5 ≤ p.day := by unfold march; omega
  have hyear : (if p.month ≤ 2 then p.civilYear - 1 else p.civilYear) =
      p.era * 400 + p.yearOfEra := by
    unfold month civilYear
    split <;> split <;> omega
  have hmonth : (if p.month > 2 then p.month - 3 else p.month + 9) = p.march := by
    rw [month]
    split <;> split <;> omega
  have hy : p.yearOfEra < 400 := by unfold yearOfEra; omega
  have hera : (p.era * 400 + p.yearOfEra : Int) / 400 = p.era := by omega
  have hyoe : (p.era * 400 + p.yearOfEra - p.era * 400 : Int).toNat = p.yearOfEra := by omega
  rw [daysFromCivil]
  simp only [hyear, hmonth, hera, hyoe]
  unfold days dayOfMonth dayOfEra yearOfEra
  omega

theorem month_range : 1 ≤ p.month ∧ p.month ≤ 12 := by
  have := p.march_le
  rw [month]
  split <;> omega

theorem isLeapYear_of_day (h : p.day = 365) :
    isLeapYear (p.era * 400 + p.yearOfEra + 1) = true := by
  have hc := p.century_le
  have hq := p.quad_le
  obtain ⟨ht, hl⟩ := p.leap h
  have h4 : (p.era * 400 + p.yearOfEra + 1 : Int) % 4 = 0 := by unfold yearOfEra; omega
  have h100 : (p.era * 400 + p.yearOfEra + 1 : Int) % 100 ≠ 0 ∨
      (p.era * 400 + p.yearOfEra + 1 : Int) % 400 = 0 := by unfold yearOfEra; omega
  simp only [isLeapYear, Bool.or_eq_true, Bool.and_eq_true, decide_eq_true_eq]
  omega

theorem dayOfMonth_range :
    1 ≤ p.dayOfMonth ∧ p.dayOfMonth ≤ daysInMonth p.civilYear p.month := by
  refine ⟨by unfold dayOfMonth; omega, ?_⟩
  by_cases hl : p.day = 365
  · have hleap := p.isLeapYear_of_day hl
    have hm : p.march = 11 := by unfold march; omega
    simp [daysInMonth, month, dayOfMonth, civilYear, hm, hl, hleap]
  · have hd := p.day_le
    have hm := p.march_le
    have hfebruary : 28 ≤ (if isLeapYear p.civilYear then 29 else 28) := by split <;> omega
    unfold daysInMonth month dayOfMonth
    generalize hmarch : p.march = m at *
    rw [march] at hmarch
    have hcases : m = 0 ∨ m = 1 ∨ m = 2 ∨ m = 3 ∨ m = 4 ∨ m = 5 ∨ m = 6 ∨ m = 7 ∨ m = 8 ∨
        m = 9 ∨ m = 10 ∨ m = 11 := by omega
    rcases hcases with rfl | rfl | rfl | rfl | rfl | rfl | rfl | rfl | rfl | rfl | rfl | rfl <;>
      simp <;> omega

theorem civilYear_range (hlow : -96465292 ≤ p.days) (hhigh : p.days ≤ 95026236) :
    -262143 ≤ p.civilYear ∧ p.civilYear ≤ 262142 := by
  have hc := p.century_le
  have hq := p.quad_le
  have ht := p.year_le
  have hd := p.day_le
  unfold days dayOfEra at *
  unfold civilYear yearOfEra march
  refine ⟨by split <;> omega, ?_⟩
  -- The last year is reached in one era only, and in one century of it.
  have hera : p.era ≤ 654 ∨ p.era = 655 := by omega
  have hcentury : p.era ≤ 654 ∨ p.century = 0 ∨ p.century = 1 := by omega
  split <;> omega

end Place
end McpOperator.Instant
