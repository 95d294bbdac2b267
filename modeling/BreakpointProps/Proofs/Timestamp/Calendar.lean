import Mathlib.Tactic.IntervalCases
import BreakpointProps.Timestamp

/-!
Days and dates. The calendar is counted in eras of 400 years that start in March, all with the same number of
days. The date of a day is a valid one, and the day of this date is the day again.
-/

namespace BreakpointProps.Date

section Era

/-- The year of an era that a day of the era lies in, if years start in March. -/
def yearOfDay (day : Int) : Int := (day - day / 1460 + day / 36524 - day / 146096) / 365

/-- The first day of a year of an era. -/
def firstDay (year : Int) : Int := 365 * year + year / 4 - year / 100

/-- The number of days of a year that starts in March. Its leap day is that of the next calendar year. -/
def daysOfYear (year : Int) : Int := if isLeap (year + 1) then 366 else 365

/-- A later day lies in no earlier year. -/
theorem yearOfDay_mono {day later : Int} (hlater : day ≤ later) : yearOfDay day ≤ yearOfDay later :=
  Int.ediv_le_ediv (by decide) (by omega)

theorem yearOfDay_nonneg {day : Int} (hday : 0 ≤ day) : 0 ≤ yearOfDay day := by
  unfold yearOfDay
  omega

theorem yearOfDay_lt {day : Int} (hday : day < 146097) : yearOfDay day < 400 := by
  unfold yearOfDay
  omega

/-- The day before a year lies in an earlier year and the day behind it in a later one. -/
theorem yearOfDay_around : ∀ year : Nat, year < 400 →
    (year ≠ 0 → yearOfDay (firstDay year - 1) < year) ∧ year < yearOfDay (firstDay year + daysOfYear year) := by
  decide +kernel

/-- A day of an era lies between the first and the last day of its year. -/
theorem yearOfDay_bounds {day : Int} (hnonneg : 0 ≤ day) (hlt : day < 146097) :
    firstDay (yearOfDay day) ≤ day ∧ day < firstDay (yearOfDay day) + daysOfYear (yearOfDay day) := by
  obtain ⟨year, hyear⟩ := Int.eq_ofNat_of_zero_le (yearOfDay_nonneg hnonneg)
  have hbound := yearOfDay_lt hlt
  rw [hyear] at hbound ⊢
  obtain ⟨hbefore, hbehind⟩ := yearOfDay_around year (by omega)
  constructor
  · refine Int.not_lt.mp fun hless => ?_
    have hfirst : year ≠ 0 := by
      rintro rfl
      exact Int.not_lt.mpr hnonneg hless
    have hearlier : yearOfDay day ≤ yearOfDay (firstDay year - 1) := yearOfDay_mono (by omega)
    have := hbefore hfirst
    omega
  · refine Int.not_le.mp fun hmore => ?_
    have hlater : yearOfDay (firstDay year + daysOfYear year) ≤ yearOfDay day := yearOfDay_mono (by omega)
    omega

end Era

section March

/-- The calendar month of a month that is counted from March. -/
def calendarMonth (month : Nat) : Nat := if month < 10 then month + 3 else month - 9

/-- The days of a year before a month, both counted from March. -/
def daysBefore (month : Nat) : Nat := (153 * month + 2) / 5

/-- The date of a day of a year that starts in March. -/
def ofMarch (year dayOfYear : Int) : Date :=
  let month := (5 * dayOfYear + 2) / 153
  let day := dayOfYear - (153 * month + 2) / 5 + 1
  let calendarMonth := if month < 10 then month + 3 else month - 9
  ⟨if calendarMonth ≤ 2 then year + 1 else year, calendarMonth.toNat, day.toNat⟩

/-- The days before a month and those of the month are the days before the next one, but for February, which
comes last. -/
theorem daysBefore_add_daysOfMonth (year : Int) {month : Nat} (hmonth : month < 11) :
    daysBefore month + daysOfMonth year (calendarMonth month) = daysBefore (month + 1) := by
  interval_cases month <;> rfl

/-- A day lies between the first day of its month and that of the next. -/
theorem exists_ofMarch {dayOfYear : Int} (year : Int) (hnonneg : 0 ≤ dayOfYear) (hlt : dayOfYear < 366) :
    ∃ month day : Nat, month < 12 ∧ dayOfYear = daysBefore month + day ∧
      daysBefore month + day < daysBefore (month + 1) ∧
      ofMarch year dayOfYear = ⟨if month < 10 then year else year + 1, calendarMonth month, day + 1⟩ := by
  obtain ⟨month, hmonth⟩ := Int.eq_ofNat_of_zero_le (show 0 ≤ (5 * dayOfYear + 2) / 153 by omega)
  have hbefore : ((153 * month + 2) / 5 : Int) = daysBefore month := rfl
  obtain ⟨day, hday⟩ := Int.eq_ofNat_of_zero_le (show 0 ≤ dayOfYear - (153 * month + 2) / 5 by omega)
  have hnext : daysBefore (month + 1) = (153 * (month + 1) + 2) / 5 := rfl
  refine ⟨month, day, by omega, by omega, by omega, ?_⟩
  rw [ofMarch, hmonth, hday]
  by_cases hspring : month < 10
  · have hshown : (if (month : Int) < 10 then (month : Int) + 3 else month - 9) = ((month + 3 : Nat) : Int) :=
      if_pos (by omega)
    rw [hshown, if_neg (by omega), calendarMonth, if_pos hspring, if_pos hspring]
    rfl
  · have hshown : (if (month : Int) < 10 then (month : Int) + 3 else month - 9) = ((month - 9 : Nat) : Int) :=
      (if_neg (by omega)).trans (by omega)
    rw [hshown, if_pos (by omega), calendarMonth, if_neg hspring, if_neg hspring]
    rfl

/-- A day lies in a year of an era, and its date is that of the day of this year. -/
theorem exists_ofDays (days : Int) : ∃ era year dayOfYear : Int,
    (0 ≤ year ∧ year < 400) ∧ (0 ≤ dayOfYear ∧ dayOfYear < daysOfYear year) ∧
      days + 719468 = era * 146097 + (firstDay year + dayOfYear) ∧
      ofDays days = ofMarch (year + era * 400) dayOfYear := by
  have hnonneg : 0 ≤ (days + 719468).fmod 146097 := Int.fmod_nonneg_of_pos _ (by decide)
  have hlt : (days + 719468).fmod 146097 < 146097 := Int.fmod_lt_of_pos _ (by decide)
  obtain ⟨hfirst, hlast⟩ := yearOfDay_bounds hnonneg hlt
  have hsplit := Int.fmod_add_fdiv_mul (days + 719468) 146097
  exact ⟨(days + 719468).fdiv 146097, yearOfDay ((days + 719468).fmod 146097),
    (days + 719468).fmod 146097 - firstDay (yearOfDay ((days + 719468).fmod 146097)),
    ⟨yearOfDay_nonneg hnonneg, yearOfDay_lt hlt⟩, ⟨by omega, by omega⟩, by omega, rfl⟩

variable {year dayOfYear : Int}

theorem daysOfYear_le (year : Int) : daysOfYear year ≤ 366 := by
  unfold daysOfYear
  split <;> decide

theorem daysOfYear_add_eras (year era : Int) : daysOfYear (year + era * 400) = daysOfYear year := by
  have hleap : isLeap (year + era * 400 + 1) = isLeap (year + 1) := by
    have hfour : (year + era * 400 + 1) % 4 = (year + 1) % 4 := by omega
    have hhundred : (year + era * 400 + 1) % 100 = (year + 1) % 100 := by omega
    have hall : (year + era * 400 + 1) % 400 = (year + 1) % 400 := by omega
    rw [isLeap, isLeap, hfour, hhundred, hall]
  rw [daysOfYear, daysOfYear, hleap]

theorem daysOfMonth_le (year : Int) (month : Nat) : daysOfMonth year month ≤ 31 := by
  unfold daysOfMonth
  split
  · split <;> decide
  · split <;> decide

/-- A day of a year that starts in March has a valid date. -/
theorem isValid_ofMarch (hnonneg : 0 ≤ dayOfYear) (hlt : dayOfYear < daysOfYear year)
    (hyear : hasYear (ofMarch year dayOfYear).year = true) : (ofMarch year dayOfYear).isValid = true := by
  obtain ⟨month, day, htwelve, hday, hnext, hdate⟩ :=
    exists_ofMarch year hnonneg (Int.lt_of_lt_of_le hlt (daysOfYear_le year))
  rw [hdate] at hyear ⊢
  have hcalendar : 1 ≤ calendarMonth month ∧ calendarMonth month ≤ 12 := by
    unfold calendarMonth
    split <;> omega
  have hlast : day + 1 ≤ daysOfMonth (if month < 10 then year else year + 1) (calendarMonth month) := by
    by_cases hfebruary : month = 11
    · subst hfebruary
      have hdays : daysOfMonth (year + 1) (calendarMonth 11) = if isLeap (year + 1) then 29 else 28 := rfl
      have hbefore : daysBefore 11 = 337 := rfl
      rw [if_neg (by decide), hdays]
      unfold daysOfYear at hlt
      split at hlt
      · rw [if_pos (by assumption)]
        omega
      · rw [if_neg (by assumption)]
        omega
    · have := daysBefore_add_daysOfMonth (if month < 10 then year else year + 1) (show month < 11 by omega)
      omega
  rw [isValid, hyear]
  simp only [Bool.true_and, Bool.and_eq_true, decide_eq_true_eq]
  exact ⟨⟨⟨hcalendar.1, hcalendar.2⟩, by omega⟩, hlast⟩

/-- The day of a date is counted from the first day of its year. -/
theorem toDays_ofMarch (era : Int) (hyear : 0 ≤ year ∧ year < 400) (hnonneg : 0 ≤ dayOfYear)
    (hlt : dayOfYear < 366) :
    (ofMarch (year + era * 400) dayOfYear).toDays + 719468 = era * 146097 + (firstDay year + dayOfYear) := by
  obtain ⟨month, day, htwelve, hday, -, hdate⟩ := exists_ofMarch (year + era * 400) hnonneg hlt
  have hera : (year + era * 400).fdiv 400 = era := by
    rw [Int.fdiv_eq_ediv_of_nonneg _ (by decide)]
    omega
  have hrest : (year + era * 400).fmod 400 = year := by
    rw [Int.fmod_eq_emod_of_nonneg _ (by decide)]
    omega
  have hback : ((calendarMonth month : Int) + 9) % 12 = month := by
    unfold calendarMonth
    split <;> omega
  have hstart : (if calendarMonth month ≤ 2 then (if month < 10 then year + era * 400 else year + era * 400 + 1) - 1
      else if month < 10 then year + era * 400 else year + era * 400 + 1) = year + era * 400 := by
    unfold calendarMonth
    split <;> split <;> omega
  have hbefore : ((153 * month + 2) / 5 : Int) = daysBefore month := rfl
  rw [hdate, toDays]
  dsimp only
  rw [hback, hstart, hera, hrest, hbefore, firstDay]
  omega

end March

/-- The day of the date of a day is this day. -/
theorem toDays_ofDays (days : Int) : (ofDays days).toDays = days := by
  obtain ⟨era, year, dayOfYear, hyear, ⟨hnonneg, hlt⟩, hdays, hdate⟩ := exists_ofDays days
  have hback := toDays_ofMarch era hyear hnonneg (Int.lt_of_lt_of_le hlt (daysOfYear_le year))
  rw [hdate]
  omega

/-- The date of a day is a valid one, unless it is too far away. -/
theorem isValid_ofDays {days : Int} (hyear : hasYear (ofDays days).year = true) : (ofDays days).isValid = true := by
  obtain ⟨era, year, dayOfYear, -, ⟨hnonneg, hlt⟩, -, hdate⟩ := exists_ofDays days
  rw [hdate] at hyear ⊢
  rw [← daysOfYear_add_eras year era] at hlt
  exact isValid_ofMarch hnonneg hlt hyear

end BreakpointProps.Date
