import Mathlib.Algebra.Group.Nat.Defs

set_option autoImplicit false

/- The Gregorian calendar, by the days since the first of March of the year 0. Years begin
in March here, so that a leap day is the last day of its year. -/
namespace Library

structure Date where
  year : Nat
  month : Nat
  day : Nat
deriving DecidableEq, Repr

namespace Calendar

/-- The days of an era of 400 years before one of its years. -/
def daysBefore (yoe : Nat) : Nat := 365 * yoe + yoe / 4 - yoe / 100

/-- The year of a day of the era. -/
def yearOfEra (doe : Nat) : Nat := (doe - doe / 1460 + doe / 36524 - doe / 146096) / 365

/-- The month of a day of the year, from March on. -/
def monthFromMarch (doy : Nat) : Nat := (5 * doy + 2) / 153

def monthOfYear (mp : Nat) : Nat := if mp < 10 then mp + 3 else mp - 9

/-- The date of a day. -/
def civil (z : Nat) : Date :=
  let doe := z % 146097
  let yoe := yearOfEra doe
  let doy := doe - daysBefore yoe
  let mp := monthFromMarch doy
  { year := yoe + z / 146097 * 400 + if monthOfYear mp ≤ 2 then 1 else 0
    month := monthOfYear mp
    day := doy - (153 * mp + 2) / 5 + 1 }

/-- The day of a date. -/
def days (date : Date) : Nat :=
  let y := date.year - if date.month ≤ 2 then 1 else 0
  let mp := (date.month + 9) % 12
  y / 400 * 146097 + daysBefore (y % 400) + ((153 * mp + 2) / 5 + (date.day - 1))

/-- The day is one of the year it is put in. -/
theorem yearOfEra_spec (doe : Nat) (inside : doe < 146097) :
    yearOfEra doe < 400 ∧ daysBefore (yearOfEra doe) ≤ doe ∧
      doe - daysBefore (yearOfEra doe) ≤ 365 := by
  generalize which : yearOfEra doe = y
  unfold yearOfEra at which
  unfold daysBefore
  -- the century decides how many leap days have been left out
  obtain century | century | century | century | last : doe / 36524 = 0 ∨ doe / 36524 = 1 ∨
      doe / 36524 = 2 ∨ doe / 36524 = 3 ∨ doe / 36524 = 4 := by omega
  · have left : y / 100 = 0 := by omega
    omega
  · have left : y / 100 = 1 := by omega
    omega
  · have left : y / 100 = 2 := by omega
    omega
  · have left : y / 100 = 3 := by omega
    omega
  · obtain rfl : doe = 146096 := by omega
    subst which
    decide

theorem monthFromMarch_spec (doy : Nat) (inside : doy ≤ 365) :
    monthFromMarch doy ≤ 11 ∧ (153 * monthFromMarch doy + 2) / 5 ≤ doy ∧
      doy - (153 * monthFromMarch doy + 2) / 5 ≤ 30 := by
  unfold monthFromMarch
  omega

theorem monthOfYear_spec (mp : Nat) (inside : mp ≤ 11) :
    1 ≤ monthOfYear mp ∧ monthOfYear mp ≤ 12 ∧ (monthOfYear mp + 9) % 12 = mp := by
  unfold monthOfYear
  split <;> omega

/-- The parts of a date lie where they should. -/
theorem civil_range (z : Nat) :
    1 ≤ (civil z).month ∧ (civil z).month ≤ 12 ∧ 1 ≤ (civil z).day ∧ (civil z).day ≤ 31 := by
  obtain ⟨_, _, short⟩ := yearOfEra_spec (z % 146097) (Nat.mod_lt _ (by decide))
  obtain ⟨few, _, days⟩ := monthFromMarch_spec _ short
  obtain ⟨lower, upper, _⟩ := monthOfYear_spec _ few
  refine ⟨lower, upper, ?_, ?_⟩
  · exact Nat.le_add_left 1 _
  · exact Nat.succ_le_succ days

/-- A date says which day it is. -/
theorem days_civil (z : Nat) : days (civil z) = z := by
  obtain ⟨inEra, begun, short⟩ := yearOfEra_spec (z % 146097) (Nat.mod_lt _ (by decide))
  obtain ⟨few, started, _⟩ := monthFromMarch_spec _ short
  obtain ⟨_, _, month⟩ := monthOfYear_spec _ few
  have year : (civil z).year - (if (civil z).month ≤ 2 then 1 else 0) =
      yearOfEra (z % 146097) + z / 146097 * 400 :=
    Nat.add_sub_cancel _ _
  have era : (yearOfEra (z % 146097) + z / 146097 * 400) / 400 = z / 146097 := by omega
  have rest : (yearOfEra (z % 146097) + z / 146097 * 400) % 400 = yearOfEra (z % 146097) := by
    omega
  have day : (civil z).day - 1 = z % 146097 - daysBefore (yearOfEra (z % 146097)) -
      (153 * monthFromMarch (z % 146097 - daysBefore (yearOfEra (z % 146097))) + 2) / 5 := rfl
  have mp : ((civil z).month + 9) % 12 =
      monthFromMarch (z % 146097 - daysBefore (yearOfEra (z % 146097))) := month
  unfold days
  dsimp only
  rw [year, era, rest, mp, day]
  omega

/-- January and February are counted to the next year. -/
theorem monthOfYear_le_two (mp : Nat) (early : monthOfYear mp ≤ 2) : 10 ≤ mp := by
  unfold monthOfYear at early
  split at early <;> omega

/-- The year of a day before the year 10000. -/
theorem civil_year_lt (z : Nat) (early : z < 3652365) : (civil z).year < 10000 := by
  obtain ⟨inEra, begun, _⟩ := yearOfEra_spec (z % 146097) (Nat.mod_lt _ (by decide))
  have year : (civil z).year = yearOfEra (z % 146097) + z / 146097 * 400 +
    if (civil z).month ≤ 2 then 1 else 0 := rfl
  rw [year]
  split
  · rename_i winter
    have late := monthOfYear_le_two _ winter
    unfold monthFromMarch daysBefore at late
    unfold daysBefore at begun
    omega
  · omega

theorem le_civil_year (z : Nat) : z / 146097 * 400 ≤ (civil z).year :=
  Nat.le_trans (Nat.le_add_left _ _) (Nat.le_add_right _ _)

end Calendar
end Library
