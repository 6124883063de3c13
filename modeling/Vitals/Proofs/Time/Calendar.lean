import Vitals.Time.Timestamp

/-!
# The calendar and the numbers of days

Days are counted in eras of 400 years that start in March, so that the leap day is the last day of
its year. Number and date are turned into one another by the year of the era and the day of that
year.
-/

namespace Vitals.Date

/-- The days of an era are split into years: no year has more than 366 days, and it has as many only
if the year after it is a leap year. -/
theorem dayOfYear_bounds {dayOfEra yearOfEra dayOfYear : Int} (start : 0 ≤ dayOfEra)
    (stop : dayOfEra ≤ 146096) (year : yearOfEra =
      (dayOfEra - dayOfEra / 1460 + dayOfEra / 36524 - dayOfEra / 146096) / 365)
    (day : dayOfYear = dayOfEra - (365 * yearOfEra + yearOfEra / 4 - yearOfEra / 100)) :
    0 ≤ dayOfYear ∧ dayOfYear ≤ 365 ∧
      (dayOfYear = 365 → yearOfEra % 4 = 3 ∧ (yearOfEra % 100 = 99 → yearOfEra = 399)) := by
  -- The quotients are small, and for fixed quotients everything is linear.
  have lastDay : dayOfEra / 146096 = 0 ∨ dayOfEra = 146096 := by omega
  have centuries : dayOfEra / 36524 = 0 ∨ dayOfEra / 36524 = 1 ∨ dayOfEra / 36524 = 2 ∨
    dayOfEra / 36524 = 3 ∨ dayOfEra / 36524 = 4 := by omega
  have hundreds : yearOfEra / 100 = 0 ∨ yearOfEra / 100 = 1 ∨ yearOfEra / 100 = 2 ∨
    yearOfEra / 100 = 3 := by omega
  rcases lastDay with earlier | rfl
  · rw [earlier] at year
    rcases centuries with h | h | h | h | h <;> rcases hundreds with g | g | g | g <;>
      rw [h] at year <;> rw [g] at day <;> omega
  · omega

/-- The date of a day of a year that starts in March. -/
def ofMarchDay (year dayOfYear : Int) : Date :=
  let shiftedMonth := (5 * dayOfYear + 2) / 153
  let day := dayOfYear - (153 * shiftedMonth + 2) / 5 + 1
  let month := if shiftedMonth < 10 then shiftedMonth + 3 else shiftedMonth - 9
  ⟨if month ≤ 2 then year + 1 else year, month.toNat, day.toNat⟩

theorem toDayNumber_ofMarchDay {era yearOfEra dayOfYear : Int} (first : 0 ≤ yearOfEra)
    (last : yearOfEra ≤ 399) (start : 0 ≤ dayOfYear) (stop : dayOfYear ≤ 365) :
    (ofMarchDay (yearOfEra + era * 400) dayOfYear).toDayNumber =
      era * 146097 + (365 * yearOfEra + yearOfEra / 4 - yearOfEra / 100) + dayOfYear - 719468 := by
  simp only [ofMarchDay, toDayNumber]
  split <;> split <;> simp_all <;> omega

theorem ofDayNumber_eq (number : Int) :
    let dayOfEra := (number + 719468) - (number + 719468) / 146097 * 146097
    let yearOfEra := (dayOfEra - dayOfEra / 1460 + dayOfEra / 36524 - dayOfEra / 146096) / 365
    ofDayNumber number =
      ofMarchDay (yearOfEra + (number + 719468) / 146097 * 400)
        (dayOfEra - (365 * yearOfEra + yearOfEra / 4 - yearOfEra / 100)) := rfl

/-- A date that the calendar has. -/
structure Valid (date : Date) : Prop where
  first_month : 1 ≤ date.month
  last_month : date.month ≤ 12
  first_day : 1 ≤ date.day
  last_day : date.day ≤ daysInMonth date.year date.month

theorem isLeapYear_succ {era yearOfEra : Int} (fourth : yearOfEra % 4 = 3)
    (century : yearOfEra % 100 = 99 → yearOfEra = 399) :
    isLeapYear (yearOfEra + era * 400 + 1) = true := by
  simp only [isLeapYear, Bool.and_eq_true, Bool.or_eq_true, beq_iff_eq, bne_iff_ne]
  omega

theorem valid_ofMarchDay {era yearOfEra dayOfYear : Int} (start : 0 ≤ dayOfYear)
    (stop : dayOfYear ≤ 365) (leap : dayOfYear = 365 →
      yearOfEra % 4 = 3 ∧ (yearOfEra % 100 = 99 → yearOfEra = 399)) :
    (ofMarchDay (yearOfEra + era * 400) dayOfYear).Valid := by
  obtain ⟨month, shifted⟩ : ∃ month, (5 * dayOfYear + 2) / 153 = month := ⟨_, rfl⟩
  by_cases february : month = 11
  · have days : dayOfYear ≤ 336 + daysInMonth (yearOfEra + era * 400 + 1) 2 := by
      by_cases last : dayOfYear = 365
      · simp [daysInMonth, isLeapYear_succ (leap last).1 (leap last).2, last]
      · simp only [daysInMonth]
        split <;> omega
    subst february
    have date : ofMarchDay (yearOfEra + era * 400) dayOfYear =
        ⟨yearOfEra + era * 400 + 1, 2, (dayOfYear - 337 + 1).toNat⟩ := by
      simp [ofMarchDay, shifted]
    rw [date]
    constructor <;> dsimp only <;> omega
  · have cases : month = 0 ∨ month = 1 ∨ month = 2 ∨ month = 3 ∨ month = 4 ∨ month = 5 ∨
      month = 6 ∨ month = 7 ∨ month = 8 ∨ month = 9 ∨ month = 10 := by omega
    rcases cases with rfl | rfl | rfl | rfl | rfl | rfl | rfl | rfl | rfl | rfl | rfl <;>
      simp only [ofMarchDay, shifted] <;> constructor <;> simp [daysInMonth] <;> omega

/-- The calendar has a date for every day, and that date has the number of the day. -/
theorem ofDayNumber_spec (number : Int) :
    (ofDayNumber number).Valid ∧ (ofDayNumber number).toDayNumber = number := by
  rw [ofDayNumber_eq]
  generalize eras : (number + 719468) / 146097 = era
  obtain ⟨dayOfEra, day⟩ : ∃ dayOfEra, number + 719468 - era * 146097 = dayOfEra := ⟨_, rfl⟩
  obtain ⟨yearOfEra, year⟩ : ∃ yearOfEra,
    (dayOfEra - dayOfEra / 1460 + dayOfEra / 36524 - dayOfEra / 146096) / 365 = yearOfEra :=
    ⟨_, rfl⟩
  rw [day, year]
  obtain ⟨start, stop, leap⟩ := dayOfYear_bounds (by omega) (by omega) year.symm rfl
  refine ⟨valid_ofMarchDay start stop leap, ?_⟩
  rw [toDayNumber_ofMarchDay (by omega) (by omega) start stop]
  omega

end Vitals.Date
