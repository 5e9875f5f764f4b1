import Mathlib

/-!
# The cycle of 400 years

Days of the Gregorian cycle of 146097 days, counted in years that begin in March, so that the leap
day is the last one of its year.

Results:
* `exists_year`, `exists_month`: every day of the cycle lies in a year and every day of a year in a
  month.
* `year_of_day`: the year of a day, without a search.
* `yearStart_le`: years follow one another, also from cycle to cycle.
* `length_year`: a year has 366 days exactly if the one it ends in is a leap year.
-/

namespace Calendar

/-- The days of the cycle before the year `y`. -/
def yearStart (y : Nat) : Nat := 365 * y + y / 4 - y / 100 + y / 400

/-- The days of a year before its month `m`, March being 0. -/
def monthStart (m : Nat) : Nat := (153 * m + 2) / 5

/-- A leap year. -/
def IsLeap (y : Int) : Prop := y % 4 = 0 ∧ y % 100 ≠ 0 ∨ y % 400 = 0

instance (y : Int) : Decidable (IsLeap y) := by
  unfold IsLeap
  infer_instance

/-- The day without the leap days of the cycle. -/
def common (doe : Nat) : Nat := doe - doe / 1460 + doe / 36524 - doe / 146096

theorem exists_year {doe : Nat} (h : doe < 146097) :
    ∃ y < 400, yearStart y ≤ doe ∧ doe < yearStart (y + 1) := by
  have hlast : doe < yearStart (399 + 1) := h
  let y := Nat.findGreatest (fun y => yearStart y ≤ doe) 399
  have hy : y ≤ 399 := Nat.findGreatest_le 399
  have hstart : yearStart y ≤ doe :=
    Nat.findGreatest_spec (P := fun y => yearStart y ≤ doe) (Nat.zero_le 399) (Nat.zero_le doe)
  refine ⟨y, by omega, hstart, ?_⟩
  obtain heq | hlt := hy.eq_or_lt
  · rw [heq]
    exact hlast
  · have hnext : ¬ yearStart (y + 1) ≤ doe := Nat.findGreatest_is_greatest
      (P := fun y => yearStart y ≤ doe) (n := 399) (Nat.lt_succ_self y) hlt
    exact not_le.mp hnext

theorem exists_month {doy : Nat} (h : doy < 366) :
    ∃ m < 12, monthStart m ≤ doy ∧ doy < monthStart (m + 1) ∧ m = (5 * doy + 2) / 153 := by
  unfold monthStart
  exact ⟨(5 * doy + 2) / 153, by omega, by omega, by omega, rfl⟩

theorem common_mono : Monotone common := by
  refine monotone_nat_of_le_succ fun d => ?_
  unfold common
  have hfour : (d + 1) / 146096 = d / 146096 ∨
      (d + 1) / 146096 = d / 146096 + 1 ∧ (d + 1) / 36524 = d / 36524 + 1 := by omega
  have hhundred : d / 36524 ≤ (d + 1) / 36524 := by omega
  have hyear : (d + 1) / 1460 ≤ d / 1460 + 1 := by omega
  omega

theorem common_yearStart : ∀ y < 400, 365 * y ≤ common (yearStart y) ∧
    common (yearStart (y + 1) - 1) < 365 * (y + 1) := by
  decide +kernel

/-- **The year of a day.** -/
theorem year_of_day {doe y : Nat} (hy : y < 400) (hstart : yearStart y ≤ doe)
    (hnext : doe < yearStart (y + 1)) : common doe / 365 = y := by
  obtain ⟨hlow, hhigh⟩ := common_yearStart y hy
  have hfrom : 365 * y ≤ common doe := hlow.trans (common_mono hstart)
  have hto : common doe < 365 * (y + 1) := (common_mono (Nat.le_sub_one_of_lt hnext)).trans_lt hhigh
  omega

/-- **The leap day is the last day of a year.** -/
theorem length_year : ∀ y < 400,
    yearStart (y + 1) = yearStart y + if IsLeap ((y : Int) + 1) then 366 else 365 := by
  decide +kernel

theorem yearStart_mono : Monotone yearStart := by
  refine monotone_nat_of_le_succ fun y => ?_
  unfold yearStart
  omega

/-- Years of different cycles, one after the other. -/
theorem yearStart_le {era era' : Int} {y y' : Nat} (hy : y < 400)
    (h : y + era * 400 < y' + era' * 400) (hy' : y' < 400) :
    era * 146097 + yearStart (y + 1) ≤ era' * 146097 + yearStart y' := by
  obtain hlt | rfl : era < era' ∨ era = era' := by omega
  · have hcycle : yearStart (y + 1) ≤ yearStart 400 := yearStart_mono (by omega)
    have hlast : yearStart 400 = 146097 := rfl
    omega
  · have hyear : yearStart (y + 1) ≤ yearStart y' := yearStart_mono (by omega)
    omega

end Calendar
