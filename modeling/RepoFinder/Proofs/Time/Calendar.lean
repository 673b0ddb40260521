import RepoFinder.Time.Calendar

namespace RepoFinder.Time.Date

def daysBefore (year : Int) : Int := 365 * year + year / 4 - year / 100 + year / 400

-- The year in which a day of an era lies. The division takes one day off for every leap year that
-- is over. Once the century and the place in its cycle of four years are fixed, no division is left
-- that is not by a constant of one kind; the last day of an era stands alone.
theorem year_of_day {day year : Int} (low : 0 ≤ day) (high : day < 146097)
    (is : year = (day - day / 1460 + day / 36524 - day / 146096) / 365) :
    0 ≤ year ∧ year < 400 ∧ daysBefore year ≤ day ∧ day < daysBefore (year + 1) := by
  simp only [daysBefore]
  have last : day / 146096 = 0 ∨ day = 146096 := by omega
  rcases last with last | rfl
  · have century : day / 36524 = 0 ∨ day / 36524 = 1 ∨ day / 36524 = 2 ∨ day / 36524 = 3 ∨
        day / 36524 = 4 := by omega
    have near : year - 4 * (day / 1460) = -1 ∨ year - 4 * (day / 1460) = 0 ∨
        year - 4 * (day / 1460) = 1 ∨ year - 4 * (day / 1460) = 2 ∨
        year - 4 * (day / 1460) = 3 ∨ year - 4 * (day / 1460) = 4 := by omega
    rcases century with same | same | same | same | same <;> rw [same, last] at is <;>
      rcases near with off | off | off | off | off | off <;> omega
  · omega

theorem month_of_day {day month : Int} (low : 0 ≤ day) (high : day ≤ 365)
    (is : month = (5 * day + 2) / 153) :
    0 ≤ month ∧ month ≤ 11 ∧ (153 * month + 2) / 5 ≤ day ∧ day < (153 * (month + 1) + 2) / 5 := by
  omega

-- A day number taken apart: the era, the year in it, and the day and the month of that year,
-- which starts in March.
structure Parts (n era year day month : Int) : Prop where
  whole : n + 719468 = era * 146097 + (daysBefore year + day)
  years : 0 ≤ year ∧ year < 400
  days : 0 ≤ day ∧ day < daysBefore (year + 1) - daysBefore year
  months : 0 ≤ month ∧ month ≤ 11
  inMonth : (153 * month + 2) / 5 ≤ day ∧ day < (153 * (month + 1) + 2) / 5
  date : ofDayNumber n =
    if month < 10 then ⟨year + era * 400, (month + 3).toNat, (day - (153 * month + 2) / 5 + 1).toNat⟩
    else ⟨year + era * 400 + 1, (month - 9).toNat, (day - (153 * month + 2) / 5 + 1).toNat⟩

theorem exists_parts (n : Int) : ∃ era year day month, Parts n era year day month := by
  obtain ⟨dayOfEra, isDay⟩ : ∃ dayOfEra, (n + 719468) % 146097 = dayOfEra := ⟨_, rfl⟩
  obtain ⟨year, isYear⟩ : ∃ year,
      (dayOfEra - dayOfEra / 1460 + dayOfEra / 36524 - dayOfEra / 146096) / 365 = year := ⟨_, rfl⟩
  have inEra : 0 ≤ dayOfEra ∧ dayOfEra < 146097 := by omega
  obtain ⟨low, high, begun, ended⟩ := year_of_day inEra.1 inEra.2 isYear.symm
  obtain ⟨day, isDayOfYear⟩ : ∃ day, dayOfEra - (365 * year + year / 4 - year / 100) = day :=
    ⟨_, rfl⟩
  have before : daysBefore year = 365 * year + year / 4 - year / 100 := by
    simp only [daysBefore]
    omega
  have short : daysBefore (year + 1) - daysBefore year ≤ 366 := by
    simp only [daysBefore]
    have leaps : (year + 1) / 4 ≤ year / 4 + 1 := by omega
    have centuries : year / 100 ≤ (year + 1) / 100 := by omega
    have none : year / 400 = 0 := by omega
    by_cases last : year = 399
    · omega
    · have stillNone : (year + 1) / 400 = 0 := by omega
      omega
  obtain ⟨month, isMonth⟩ : ∃ month, (5 * day + 2) / 153 = month := ⟨_, rfl⟩
  obtain ⟨first, last, begins, ends⟩ :=
    month_of_day (by omega) (by omega : day ≤ 365) isMonth.symm
  refine ⟨(n + 719468) / 146097, year, day, month, ?_, ⟨low, high⟩, ⟨by omega, by omega⟩,
    ⟨first, last⟩, ⟨begins, ends⟩, ?_⟩
  · omega
  · simp only [ofDayNumber, isDay, isYear, isDayOfYear, isMonth]

theorem toDayNumber_ofDayNumber (n : Int) : (ofDayNumber n).toDayNumber = n := by
  obtain ⟨era, year, day, month, parts⟩ := exists_parts n
  obtain ⟨whole, years, days, months, inMonth, date⟩ := parts
  rw [date]
  simp only [daysBefore] at whole days
  -- January and February belong to the next year, though they end this one here.
  by_cases early : month < 10
  · rw [if_pos early]
    have late : ¬(month + 3).toNat ≤ 2 := by omega
    simp only [toDayNumber, late, if_false]
    omega
  · rw [if_neg early]
    have winter : (month - 9).toNat ≤ 2 := by omega
    simp only [toDayNumber, winter, if_true]
    omega

theorem isValid_ofDayNumber (n : Int) : (ofDayNumber n).isValid = true := by
  obtain ⟨era, year, day, month, parts⟩ := exists_parts n
  obtain ⟨_, years, days, months, inMonth, date⟩ := parts
  simp only [daysBefore] at days
  rw [date]
  have every : month = 0 ∨ month = 1 ∨ month = 2 ∨ month = 3 ∨ month = 4 ∨ month = 5 ∨ month = 6 ∨
      month = 7 ∨ month = 8 ∨ month = 9 ∨ month = 10 ∨ month = 11 := by omega
  rcases every with rfl | rfl | rfl | rfl | rfl | rfl | rfl | rfl | rfl | rfl | rfl | rfl
  all_goals simp [isValid, daysInMonth, isLeapYear]
  -- Only February asks whether its year is a leap year.
  case inr.inr.inr.inr.inr.inr.inr.inr.inr.inr.inr => split <;> omega
  all_goals omega

theorem year_ofDayNumber {n : Int} (low : toDayNumber ⟨firstYear, 1, 1⟩ ≤ n)
    (high : n ≤ toDayNumber ⟨lastYear, 12, 31⟩) :
    firstYear ≤ (ofDayNumber n).year ∧ (ofDayNumber n).year ≤ lastYear := by
  have first : toDayNumber ⟨firstYear, 1, 1⟩ = -96465292 := by rfl
  have last : toDayNumber ⟨lastYear, 12, 31⟩ = 95026236 := by rfl
  obtain ⟨era, year, day, month, parts⟩ := exists_parts n
  obtain ⟨whole, years, days, months, inMonth, date⟩ := parts
  simp only [daysBefore] at whole days
  rw [first] at low
  rw [last] at high
  have eras : era ≤ -657 ∨ era = -656 ∨ -655 ≤ era ∧ era ≤ 654 ∨ era = 655 ∨ 656 ≤ era := by omega
  have none : year / 400 = 0 := by omega
  rw [date]
  by_cases early : month < 10
  · rw [if_pos early]
    have autumn : day < 306 := by omega
    simp only [firstYear, lastYear]
    rcases eras with far | rfl | ⟨after, before⟩ | rfl | far <;> omega
  · rw [if_neg early]
    have winter : 306 ≤ day := by omega
    simp only [firstYear, lastYear]
    rcases eras with far | rfl | ⟨after, before⟩ | rfl | far <;> omega

end RepoFinder.Time.Date
