import AccountAccess.Time.Timestamp
import Mathlib.Algebra.Order.Group.Int
import Mathlib.Order.Monotone.Basic
import Mathlib.Tactic.SplitIfs

/-!
# Which year a day lies in

A day is found to lie in a year or a later one exactly if it is not before the first of January of
that year.  So the two counts of the calendar, from a date to days and back, agree on where the
years begin, and the bounds of the timestamps are bounds on years.

The years of an era begin in March.  The quotient that finds such a year corrects the day by the
leap days in front of it, as if they were spread evenly; that it lands in the right year is the one
fact that needs care.  Years are compared by era, then by the year of the era, and January comes
after all of March to December.

## Main results

* `withoutLeapDays_daysBeforeYear`, `withoutLeapDays_mono`: a year begins with the days of as many
  common years, and the correction does not change the order of days.
* `le_yearOfDay_iff`: a day lies in a year of its era or a later one exactly if it is not in front
  of it.
* `le_year_dateOfDays_iff`: the same for all years and the calendar as it is written.
* `Timestamp.inCalendar_iff`: the seconds that can be represented are those of the calendar.
-/

namespace AccountAccess
namespace Time

variable {day year : Int}

/-! ## Years of an era -/

/-- The days of an era in front of one of its years. -/
def daysBeforeYear (year : Int) : Int :=
  365 * year + year / 4 - year / 100

/-- A day of an era without the leap days in front of it. -/
def withoutLeapDays (day : Int) : Int :=
  day - day / 1460 + day / 36524 - day / 146096

theorem withoutLeapDays_mono {before : Int} (h : before ≤ day) :
    withoutLeapDays before ≤ withoutLeapDays day := by
  refine monotone_int_of_le_succ (f := withoutLeapDays) (fun day => ?_) h
  unfold withoutLeapDays
  omega

theorem exists_century (h : 0 ≤ year) (hlast : year ≤ 399) : ∃ century leap more : Int,
    (0 ≤ century ∧ century ≤ 3) ∧ (0 ≤ leap ∧ leap ≤ 24) ∧ (0 ≤ more ∧ more ≤ 3) ∧
      year = 100 * century + 4 * leap + more ∧
      daysBeforeYear year = 36524 * century + 1461 * leap + 365 * more := by
  refine ⟨year / 100, year % 100 / 4, year % 4, ?_⟩
  unfold daysBeforeYear
  omega

/-- A year begins with the days of as many common years. -/
theorem withoutLeapDays_daysBeforeYear (h : 0 ≤ year) (hlast : year ≤ 399) :
    withoutLeapDays (daysBeforeYear year) = 365 * year := by
  obtain ⟨century, leap, more, hcentury, hleap, hmore, rfl, hdays⟩ := exists_century h hlast
  unfold withoutLeapDays
  rw [hdays]
  have hquarter : (36524 * century + 1461 * leap + 365 * more) / 1460 = 25 * century + leap := by
    omega
  have hwhole : (36524 * century + 1461 * leap + 365 * more) / 36524 = century := by omega
  omega

theorem withoutLeapDays_lt (h : 0 < year) (hlast : year ≤ 399) :
    withoutLeapDays (daysBeforeYear year - 1) < 365 * year := by
  obtain ⟨century, leap, more, hcentury, hleap, hmore, rfl, hdays⟩ := exists_century h.le hlast
  unfold withoutLeapDays
  rw [hdays]
  generalize hday : 36524 * century + 1461 * leap + 365 * more - 1 = day
  have hquarter : day / 1460 = 25 * century + leap := by omega
  have hwhole : day / 36524 ≤ century := by omega
  have hera : 0 ≤ day / 146096 := by omega
  omega

/-- The year of an era that a day of the era lies in. -/
def yearOfDay (day : Int) : Int :=
  withoutLeapDays day / 365

theorem yearOfDay_bounds (h : 0 ≤ day) (hlt : day < daysPerEra) :
    0 ≤ yearOfDay day ∧ yearOfDay day ≤ 399 := by
  unfold daysPerEra at hlt
  unfold yearOfDay withoutLeapDays
  omega

/-- **A day lies in a year of its era or a later one exactly if it is not in front of it.** -/
theorem le_yearOfDay_iff (h : 0 ≤ day) (hyear : 0 ≤ year) (hlast : year ≤ 399) :
    year ≤ yearOfDay day ↔ daysBeforeYear year ≤ day := by
  have hyearOf : year ≤ yearOfDay day ↔ 365 * year ≤ withoutLeapDays day := by
    unfold yearOfDay
    omega
  rw [hyearOf]
  constructor
  · intro hle
    by_contra hbefore
    rcases hyear.eq_or_lt with rfl | hpos
    · exact hbefore h
    · have hearlier := withoutLeapDays_mono (Int.le_sub_one_of_lt (not_le.1 hbefore))
      exact absurd (hle.trans hearlier) (not_le.2 (withoutLeapDays_lt hpos hlast))
  · intro hle
    exact (withoutLeapDays_daysBeforeYear hyear hlast).symm.le.trans (withoutLeapDays_mono hle)

/-- A year has 365 days or one more. -/
theorem dayOfYear_bounds (h : 0 ≤ day) (hlt : day < daysPerEra) :
    0 ≤ day - daysBeforeYear (yearOfDay day) ∧ day - daysBeforeYear (yearOfDay day) ≤ 365 := by
  obtain ⟨hfirst, hlast⟩ := yearOfDay_bounds h hlt
  have hbegun := (le_yearOfDay_iff h hfirst hlast).1 (le_refl _)
  have hnext : yearOfDay day < 399 → ¬daysBeforeYear (yearOfDay day + 1) ≤ day := by
    intro hyear
    rw [← le_yearOfDay_iff h (by omega) (by omega)]
    omega
  unfold daysPerEra at hlt
  unfold daysBeforeYear at *
  omega

/-! ## Years -/

/-- From the 306th day of a year of an era on it is January, which belongs to the next year. -/
theorem year_dateOfDays {days era : Int} (hera : (days + epochOffset) / daysPerEra = era)
    (hday : (days + epochOffset) % daysPerEra = day) :
    (dateOfDays days).year = 400 * era + yearOfDay day +
      if 306 ≤ day - daysBeforeYear (yearOfDay day) then 1 else 0 := by
  have hdate : (dateOfDays days).year = yearOfDay day + era * 400 +
      if (if (5 * (day - daysBeforeYear (yearOfDay day)) + 2) / 153 < 10 then
          (5 * (day - daysBeforeYear (yearOfDay day)) + 2) / 153 + 3
        else (5 * (day - daysBeforeYear (yearOfDay day)) + 2) / 153 - 9) ≤ 2 then 1 else 0 := by
    rw [← hera, ← hday]
    rfl
  have hnonneg : 0 ≤ day := hday ▸ Int.emod_nonneg _ (by decide)
  have hlt : day < daysPerEra := hday ▸ Int.emod_lt_of_pos _ (by decide)
  obtain ⟨hbegun, hlast⟩ := dayOfYear_bounds hnonneg hlt
  rw [hdate]
  generalize day - daysBeforeYear (yearOfDay day) = dayOfYear at *
  split_ifs <;> omega

/-- **A day lies in a year or a later one exactly if it is not before the first of January of that
year.** -/
theorem le_year_dateOfDays_iff (days year : Int) :
    year ≤ (dateOfDays days).year ↔ daysOfDate ⟨year, 1, 1⟩ ≤ days := by
  obtain ⟨era, hera⟩ : ∃ era, (days + epochOffset) / daysPerEra = era := ⟨_, rfl⟩
  obtain ⟨day, hday⟩ : ∃ day, (days + epochOffset) % daysPerEra = day := ⟨_, rfl⟩
  have hnonneg : 0 ≤ day := hday ▸ Int.emod_nonneg _ (by decide)
  have hlt : day < daysPerEra := hday ▸ Int.emod_lt_of_pos _ (by decide)
  have hdays : daysPerEra * era + day = days + epochOffset := by
    rw [← hera, ← hday, Int.mul_ediv_add_emod]
  -- The year before is the one that January belongs to in its era.
  obtain ⟨other, before, hbefore, hbeforelt, hyear⟩ : ∃ other before : Int,
      0 ≤ before ∧ before ≤ 399 ∧ year = 400 * other + before + 1 :=
    ⟨(year - 1) / 400, (year - 1) % 400, by omega, by omega, by omega⟩
  have hjanuary : daysOfDate ⟨year, 1, 1⟩ =
      other * daysPerEra + (daysBeforeYear before + 306) - epochOffset := by
    have hother : (year - 1) / 400 = other := by omega
    have hrest : (year - 1) % 400 = before := by omega
    show (year - 1) / 400 * daysPerEra + ((year - 1) % 400 * 365 + (year - 1) % 400 / 4 -
      (year - 1) % 400 / 100 + 306) - epochOffset = _
    rw [hother, hrest, daysBeforeYear, Int.mul_comm before]
  rw [year_dateOfDays hera hday, hjanuary]
  obtain ⟨hfirst, hlast⟩ := yearOfDay_bounds hnonneg hlt
  have hbegun := le_yearOfDay_iff hnonneg hbefore hbeforelt
  have hnext : before < 399 → (before + 1 ≤ yearOfDay day ↔ daysBeforeYear (before + 1) ≤ day) :=
    fun hyear => le_yearOfDay_iff hnonneg (by omega) (by omega)
  have hlength : before < 399 → daysBeforeYear before + 365 ≤ daysBeforeYear (before + 1) := by
    unfold daysBeforeYear
    omega
  have hwithin : 0 ≤ daysBeforeYear before ∧ daysBeforeYear before + 365 < daysPerEra := by
    unfold daysBeforeYear daysPerEra
    omega
  unfold daysPerEra at *
  rcases lt_trichotomy era other with hera | rfl | hera
  · split_ifs <;> omega
  · rcases lt_trichotomy before (yearOfDay day) with hyear | rfl | hyear
    · split_ifs <;> omega
    · split_ifs <;> omega
    · split_ifs <;> omega
  · split_ifs <;> omega

end Time

/-- A second lies in one of the years of the calendar. -/
def Timestamp.InCalendar (seconds : Int) : Prop :=
  -262143 ≤ (Time.dateOfDays (seconds / secondsPerDay)).year ∧
    (Time.dateOfDays (seconds / secondsPerDay)).year ≤ 262142

/-- **The representable seconds are those of the calendar.** -/
theorem Timestamp.inCalendar_iff {seconds : Int} :
    InCalendar seconds ↔ earliest ≤ seconds ∧ seconds ≤ latest := by
  have hfirst : Time.daysOfDate ⟨-262143, 1, 1⟩ = -96465292 := by decide
  have hend : Time.daysOfDate ⟨262143, 1, 1⟩ = 95026237 := by decide
  have hyears : InCalendar seconds ↔
      -262143 ≤ (Time.dateOfDays (seconds / secondsPerDay)).year ∧
        ¬262143 ≤ (Time.dateOfDays (seconds / secondsPerDay)).year := by
    unfold InCalendar
    omega
  rw [hyears, Time.le_year_dateOfDays_iff, Time.le_year_dateOfDays_iff, hfirst, hend]
  unfold secondsPerDay earliest latest
  omega

end AccountAccess
