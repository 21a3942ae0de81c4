/- path: JsonScada/Lib/Calendar
   layer: library
   digest: Clock times of the Gregorian calendar and the times of a clock they are read from. -/

import JsonScada.Lib.EcmaScript

set_option autoImplicit false
set_option relaxedAutoImplicit false

namespace JsonScada.Lib.Calendar

open JsonScada.Lib.EcmaScript (civilFromDays)

/-- The day of a date, counted from 1970-01-01. Years are counted from March on, so that the
leap day is the last one of its year. -/
def daysFromCivil (year month day : ℤ) : ℤ :=
  let y := if month ≤ 2 then year - 1 else year
  let mp := if month ≤ 2 then month + 9 else month - 3
  let era := y / 400
  let yoe := y - era * 400
  let doy := (153 * mp + 2) / 5 + day - 1
  era * 146097 + (yoe * 365 + yoe / 4 - yoe / 100 + doy) - 719468

section Days

/-- The year in its era of 400 years. -/
theorem year_of_day {doe : ℤ} (hlow : 0 ≤ doe) (hhigh : doe < 146097) :
    0 ≤ (doe - doe / 1460 + doe / 36524 - doe / 146096) / 365 ∧
      (doe - doe / 1460 + doe / 36524 - doe / 146096) / 365 < 400 := by
  omega

/-- The day in that year. By the century, as the last day of the era is the only one beyond
the fourth. -/
theorem day_of_year {doe yoe : ℤ} (hlow : 0 ≤ doe) (hhigh : doe < 146097)
    (hyoe : yoe = (doe - doe / 1460 + doe / 36524 - doe / 146096) / 365) :
    0 ≤ doe - (365 * yoe + yoe / 4 - yoe / 100) ∧
      doe - (365 * yoe + yoe / 4 - yoe / 100) ≤ 365 := by
  by_cases hlast : doe = 146096
  · subst hlast
    omega
  · have hera : doe / 146096 = 0 := by omega
    have hcentury : doe / 36524 = 0 ∨ doe / 36524 = 1 ∨ doe / 36524 = 2 ∨ doe / 36524 = 3 := by
      omega
    rw [hera] at hyoe
    rcases hcentury with h | h | h | h <;> rw [h] at hyoe
    · have hyear : yoe / 100 = 0 ∨ yoe = 100 := by omega
      rcases hyear with hyear | hyear <;> constructor <;> omega
    · have hyear : yoe / 100 = 1 ∨ yoe = 200 := by omega
      rcases hyear with hyear | hyear <;> constructor <;> omega
    · have hyear : yoe / 100 = 2 ∨ yoe = 300 := by omega
      rcases hyear with hyear | hyear <;> constructor <;> omega
    · have hyear : yoe / 100 = 3 ∨ yoe = 400 := by omega
      rcases hyear with hyear | hyear <;> constructor <;> omega

/-- The date of a day is a date of that day. -/
theorem daysFromCivil_civilFromDays (days : ℤ) :
    daysFromCivil (civilFromDays days).1 (civilFromDays days).2.1 (civilFromDays days).2.2 =
      days := by
  unfold civilFromDays
  dsimp only
  generalize hera : (days + 719468) / 146097 = era
  generalize hdoe : days + 719468 - era * 146097 = doe
  have hlow : 0 ≤ doe := by omega
  have hhigh : doe < 146097 := by omega
  have hyoe := year_of_day hlow hhigh
  have hdoy := day_of_year hlow hhigh rfl
  generalize (doe - doe / 1460 + doe / 36524 - doe / 146096) / 365 = yoe at hyoe hdoy ⊢
  generalize hd : doe - (365 * yoe + yoe / 4 - yoe / 100) = doy at hdoy ⊢
  generalize hmp : (5 * doy + 2) / 153 = mp
  have hmonth : 0 ≤ mp ∧ mp ≤ 11 := by omega
  have hyear : (yoe + era * 400) / 400 = era := by omega
  unfold daysFromCivil
  by_cases hm : mp < 10
  · have hspring : ¬ mp + 3 ≤ 2 := by omega
    simp only [if_pos hm, if_neg hspring, add_zero, hyear, add_sub_cancel_right]
    omega
  · have hwinter : mp - 9 ≤ 2 := by omega
    simp only [if_neg hm, if_pos hwinter, add_sub_cancel_right, hyear, sub_add_cancel]
    omega

/-- The months and the days of a month are counted from one. -/
theorem civil_bounds (days : ℤ) :
    (1 ≤ (civilFromDays days).2.1 ∧ (civilFromDays days).2.1 ≤ 12) ∧
      1 ≤ (civilFromDays days).2.2 ∧ (civilFromDays days).2.2 ≤ 31 := by
  unfold civilFromDays
  dsimp only
  generalize hdoe : days + 719468 - (days + 719468) / 146097 * 146097 = doe
  have hdoy := @day_of_year doe _ (by omega) (by omega) rfl
  generalize (doe - doe / 1460 + doe / 36524 - doe / 146096) / 365 = yoe at hdoy ⊢
  generalize doe - (365 * yoe + yoe / 4 - yoe / 100) = doy at hdoy ⊢
  refine ⟨?_, by omega, by omega⟩
  split <;> omega

/-- The hundred years whose two-digit numbers count from 70. -/
theorem civil_century {days : ℤ} (hlow : 0 ≤ days) (hhigh : days < 36525) :
    1970 ≤ (civilFromDays days).1 ∧ (civilFromDays days).1 < 2070 := by
  unfold civilFromDays
  dsimp only
  have hera : (days + 719468) / 146097 = 4 ∨ (days + 719468) / 146097 = 5 := by omega
  generalize hdoe : days + 719468 - (days + 719468) / 146097 * 146097 = doe
  have hyoe := @year_of_day doe (by omega) (by omega)
  generalize hy : (doe - doe / 1460 + doe / 36524 - doe / 146096) / 365 = yoe at hyoe ⊢
  rcases hera with hera | hera <;> rw [hera] at hdoe ⊢
  · have hyear : 370 ≤ yoe ∨ yoe = 369 := by omega
    split <;> split <;> omega
  · have hyear : yoe < 69 ∨ yoe = 69 := by omega
    split <;> split <;> omega

end Days

section Clock

/-- What a clock shows at a time in milliseconds. -/
structure Reading where
  year : ℤ
  month : ℤ
  day : ℤ
  hour : ℤ
  minute : ℤ
  second : ℤ
  millisecond : ℤ
  deriving DecidableEq

def reading (time : ℤ) : Reading where
  year := (civilFromDays (time / 86400000)).1
  month := (civilFromDays (time / 86400000)).2.1
  day := (civilFromDays (time / 86400000)).2.2
  hour := time / 3600000 % 24
  minute := time / 60000 % 60
  second := time / 1000 % 60
  millisecond := time % 1000

/-- The calendar has the date, and a day the time. -/
def Reading.Valid (c : Reading) : Prop :=
  civilFromDays (daysFromCivil c.year c.month c.day) = (c.year, c.month, c.day) ∧
    (0 ≤ c.hour ∧ c.hour < 24) ∧ (0 ≤ c.minute ∧ c.minute < 60) ∧
    (0 ≤ c.second ∧ c.second < 60) ∧ 0 ≤ c.millisecond ∧ c.millisecond < 1000

instance (c : Reading) : Decidable c.Valid := by
  unfold Reading.Valid
  infer_instance

/-- The time a clock shows so; none if it never does. -/
def timeOf (c : Reading) : Option ℤ :=
  if c.Valid then
    some (daysFromCivil c.year c.month c.day * 86400000 + c.hour * 3600000 + c.minute * 60000 +
      c.second * 1000 + c.millisecond)
  else none

/-- The hour of one time with the minute, second and millisecond of another. -/
def withinHour (now time : ℤ) : Reading :=
  { reading now with
    minute := (reading time).minute
    second := (reading time).second
    millisecond := (reading time).millisecond }

theorem timeOf_withinHour (now time : ℤ) :
    timeOf (withinHour now time) = some (now / 3600000 * 3600000 + time % 3600000) := by
  have hday := daysFromCivil_civilFromDays (now / 86400000)
  have hvalid : (withinHour now time).Valid := by
    refine ⟨?_, ?_, ?_, ?_, ?_⟩
    · change civilFromDays (daysFromCivil (civilFromDays (now / 86400000)).1
        (civilFromDays (now / 86400000)).2.1 (civilFromDays (now / 86400000)).2.2) =
          civilFromDays (now / 86400000)
      rw [hday]
    all_goals
      simp only [withinHour, reading]
      omega
  rw [timeOf, if_pos hvalid]
  simp only [withinHour, reading, hday]
  congr 1
  omega

/-- What a clock shows at a time is a reading of that time. -/
theorem timeOf_reading (time : ℤ) : timeOf (reading time) = some time := by
  have hsame := timeOf_withinHour time time
  rwa [show time / 3600000 * 3600000 + time % 3600000 = time by omega] at hsame

end Clock

end JsonScada.Lib.Calendar
