import Dormitory.Date
import Mathlib.Order.Monotone.Basic
import Mathlib.Data.Nat.Find
import Mathlib.Tactic.IntervalCases

/-!
# The calendar

`Civil.days` and `Civil.ofDays` are inverse to each other. Both go through a
date counted from March, where the leap day comes last: the years of an era
lie between the days `eraDays`, its months between the days `marchDays`.
-/

namespace Dormitory

/-- Days of an era of 400 years before its year `y`. -/
def eraDays (y : Nat) : Nat := 365 * y + y / 4 - y / 100 + y / 400

/-- Days of a year, taken to start in March, before its month `s`. -/
def marchDays (s : Nat) : Nat := (153 * s + 2) / 5

/-- Days of an era that are no leap day. -/
def commonDays (d : Nat) : Nat := d - d / 1460 + d / 36524 - d / 146096

theorem commonDays_mono : Monotone commonDays := by
  apply monotone_nat_of_le_succ
  intro d
  unfold commonDays
  omega

theorem eraDays_year : ∀ y < 400, eraDays (y + 1) ≤ eraDays y + 366 := by
  decide +kernel

theorem eraDays_common : ∀ y < 400, eraDays y + 365 ≤ eraDays (y + 1) := by
  decide +kernel

theorem commonDays_year : ∀ y < 400,
    365 * y ≤ commonDays (eraDays y) ∧ commonDays (eraDays (y + 1) - 1) < 365 * (y + 1) := by
  decide +kernel

/-- The year of a day of an era. -/
theorem yearOfEra {d : Nat} {y : Nat} (hy : y < 400) (first : eraDays y ≤ d)
    (last : d < eraDays (y + 1)) : commonDays d / 365 = y := by
  obtain ⟨low, high⟩ := commonDays_year y hy
  have := commonDays_mono first
  have := commonDays_mono (show d ≤ eraDays (y + 1) - 1 by omega)
  omega

/-- A day of the calendar by its era, its year from March on, its month and its
day, all counted from 0. -/
structure MarchDate where
  era : Int
  year : Nat
  month : Nat
  day : Nat
  year_lt : year < 400
  month_lt : month < 12
  in_month : marchDays month + day < marchDays (month + 1)
  in_year : eraDays year + (marchDays month + day) < eraDays (year + 1)

namespace MarchDate

def days (m : MarchDate) : Int :=
  m.era * 146097 + (eraDays m.year + (marchDays m.month + m.day) : Nat) - 719468

def civil (m : MarchDate) : Civil where
  year := m.year + m.era * 400 + if m.month < 10 then 0 else 1
  month := if m.month < 10 then m.month + 3 else m.month - 9
  day := m.day + 1

theorem civil_days (m : MarchDate) : m.civil.days = m.days := by
  obtain ⟨era, y, s, d, hy, hs, hm, hyr⟩ := m
  have same : ((y : Int) + era * 400).fdiv 400 = era := by
    rw [Int.fdiv_eq_ediv_of_nonneg _ (by omega)]
    omega
  by_cases h : s < 10
  · have late : ¬ s + 3 ≤ 2 := by omega
    simp only [civil, Civil.days, days, eraDays, marchDays, h, late, if_true, if_false, add_zero,
      same]
    omega
  · have early : s - 9 ≤ 2 := by omega
    simp only [civil, Civil.days, days, eraDays, marchDays, h, early, if_true, if_false,
      add_sub_cancel_right, same]
    omega

theorem ofDays_eq {n era doe yoe doy s day : Int} (hera : (n + 719468).fdiv 146097 = era)
    (hdoe : n + 719468 - era * 146097 = doe)
    (hyoe : (doe - doe / 1460 + doe / 36524 - doe / 146096) / 365 = yoe)
    (hdoy : doe - (365 * yoe + yoe / 4 - yoe / 100) = doy) (hs : (5 * doy + 2) / 153 = s)
    (hday : doy - (153 * s + 2) / 5 + 1 = day) :
    Civil.ofDays n =
      ⟨yoe + era * 400 + (if (if s < 10 then s + 3 else s - 9) ≤ 2 then 1 else 0),
        (if s < 10 then s + 3 else s - 9).toNat, day.toNat⟩ := by
  subst hera hdoe hyoe hdoy hs hday
  rfl

theorem ofDays_days (m : MarchDate) : Civil.ofDays m.days = m.civil := by
  obtain ⟨era, y, s, d, hy, hs, hm, hyr⟩ := m
  have inEra : eraDays y + (marchDays s + d) < 146097 := by
    unfold eraDays marchDays at *
    omega
  have year := yearOfEra hy (show eraDays y ≤ eraDays y + (marchDays s + d) by omega) hyr
  obtain ⟨doe, same⟩ : ∃ doe : Nat, doe = eraDays y + (marchDays s + d) := ⟨_, rfl⟩
  have hdoy : (doe : Int) - (365 * y + y / 4 - y / 100) = (marchDays s + d : Nat) := by
    rw [same]
    unfold eraDays
    omega
  have hyoe : ((doe : Int) - doe / 1460 + doe / 36524 - doe / 146096) / 365 = y := by
    rw [← same] at year
    unfold commonDays at year
    omega
  rw [@ofDays_eq _ era doe y (marchDays s + d : Nat) s (d + 1) ?_ ?_ hyoe hdoy ?_ ?_]
  · by_cases h : s < 10
    · have late : ¬ (s : Int) + 3 ≤ 2 := by omega
      simp [civil, h, late]
      omega
    · have early : (s : Int) - 9 ≤ 2 := by omega
      simp [civil, h, early]
      omega
  · rw [Int.fdiv_eq_ediv_of_nonneg _ (by omega)]
    simp only [days]
    omega
  · simp only [days]
    omega
  · unfold marchDays at *
    omega
  · unfold marchDays
    omega

/-- The first of the month. -/
theorem first_days (m : MarchDate) :
    Civil.days ⟨m.civil.year, m.civil.month, 1⟩ = m.days - m.day := by
  have days := m.civil_days
  obtain ⟨era, y, s, d, hy, hs, hm, hyr⟩ := m
  rw [← days]
  unfold Civil.days civil
  dsimp only
  split <;> push_cast <;> omega

/-- The first of the next month. -/
theorem next_days (m : MarchDate) : m.days <
    if m.civil.month = 12 then Civil.days ⟨m.civil.year + 1, 1, 1⟩
    else Civil.days ⟨m.civil.year, m.civil.month + 1, 1⟩ := by
  obtain ⟨era, y, s, d, hy, hs, hm, hyr⟩ := m
  have month : marchDays s + d < marchDays (s + 1) := hm
  have year : eraDays y + (marchDays s + d) < eraDays (y + 1) := hyr
  have ediv (y : Int) : y.fdiv 400 = y / 400 := Int.fdiv_eq_ediv_of_nonneg _ (by omega)
  simp only [civil, Civil.days, days, ediv]
  unfold eraDays marchDays at month year ⊢
  rcases (show s < 9 ∨ s = 9 ∨ s = 10 ∨ s = 11 by omega) with early | rfl | rfl | rfl
  · have december : s + 3 ≠ 12 := by omega
    have late : ¬ s + 3 + 1 ≤ 2 := by omega
    simp only [show s < 10 by omega, if_true, december, late, if_false]
    omega
  all_goals
    simp at month year ⊢
    omega

theorem exists_days (n : Int) : ∃ m : MarchDate, m.days = n := by
  obtain ⟨d, hd⟩ := Int.eq_ofNat_of_zero_le
    (show 0 ≤ n + 719468 - (n + 719468) / 146097 * 146097 by omega)
  have small : d < 146097 := by omega
  obtain ⟨y, hy, first, last⟩ : ∃ y < 400, eraDays y ≤ d ∧ d < eraDays (y + 1) := by
    have some : ∃ k, d < eraDays (k + 1) := ⟨399, by simpa [eraDays] using small⟩
    have least : ∀ k < Nat.find some, ¬ d < eraDays (k + 1) := fun k => Nat.find_min some
    have found := Nat.find_spec some
    generalize Nat.find some = y at *
    refine ⟨y, ?_, ?_, found⟩
    · by_contra far
      exact least 399 (by omega) (by simpa [eraDays] using small)
    · cases y with
      | zero => simp [eraDays]
      | succ y => exact Nat.le_of_not_lt (least y (by omega))
  have := eraDays_year y hy
  let s := (5 * (d - eraDays y) + 2) / 153
  have within : marchDays s ≤ d - eraDays y ∧ d - eraDays y < marchDays (s + 1) := by
    unfold marchDays s
    omega
  have months : s < 12 := by omega
  refine ⟨⟨(n + 719468) / 146097, y, s, d - eraDays y - marchDays s, hy, months, by omega,
    by omega⟩, ?_⟩
  have : eraDays y + (marchDays s + (d - eraDays y - marchDays s)) = d := by omega
  simp only [days, this]
  omega

end MarchDate

theorem Civil.days_ofDays (n : Int) : (Civil.ofDays n).days = n := by
  obtain ⟨m, rfl⟩ := MarchDate.exists_days n
  rw [m.ofDays_days, m.civil_days]

/-- The years that `Date` reaches have six digits. -/
theorem Civil.ofDays_year {n : Int} (low : -100000000 ≤ n) (high : n ≤ 100000000) :
    (Civil.ofDays n).year.natAbs < 10 ^ 6 := by
  have ediv : (n + 719468).fdiv 146097 = (n + 719468) / 146097 :=
    Int.fdiv_eq_ediv_of_nonneg _ (by decide)
  simp only [Civil.ofDays, ediv]
  split <;> omega

/-- The date exists in every year. -/
def Civil.Common (c : Civil) : Prop := 1 ≤ c.month ∧ c.month ≤ 12 ∧ 1 ≤ c.day ∧ c.day ≤ 28

theorem Civil.Common.exists_march {c : Civil} (h : c.Common) : ∃ m : MarchDate, m.civil = c := by
  obtain ⟨year, month, day⟩ := c
  obtain ⟨first, last, low, high⟩ := h
  dsimp only at first last low high
  have within (y s : Nat) (hy : y < 400) (hs : s < 12) :
      marchDays s + (day - 1) < marchDays (s + 1) ∧
        eraDays y + (marchDays s + (day - 1)) < eraDays (y + 1) := by
    have := eraDays_common y hy
    unfold marchDays
    omega
  by_cases h : month ≤ 2
  · obtain ⟨inMonth, inYear⟩ := within ((year - 1) % 400).toNat (month + 9) (by omega) (by omega)
    refine ⟨⟨(year - 1) / 400, _, _, _, by omega, by omega, inMonth, inYear⟩, ?_⟩
    simp only [MarchDate.civil, Civil.mk.injEq, show ¬ month + 9 < 10 by omega, if_false]
    omega
  · obtain ⟨inMonth, inYear⟩ := within (year % 400).toNat (month - 3) (by omega) (by omega)
    refine ⟨⟨year / 400, _, _, _, by omega, by omega, inMonth, inYear⟩, ?_⟩
    simp only [MarchDate.civil, Civil.mk.injEq, show month - 3 < 10 by omega, if_true]
    omega

theorem Civil.Common.ofDays_days {c : Civil} (h : c.Common) : Civil.ofDays c.days = c := by
  obtain ⟨m, rfl⟩ := h.exists_march
  rw [m.civil_days, m.ofDays_days]

/-- The month and the day of a date are in range. -/
theorem Civil.ofDays_range (n : Int) : 1 ≤ (Civil.ofDays n).month ∧ (Civil.ofDays n).month ≤ 12 ∧
    1 ≤ (Civil.ofDays n).day ∧ (Civil.ofDays n).day ≤ 31 := by
  obtain ⟨m, rfl⟩ := MarchDate.exists_days n
  have := m.month_lt
  have := m.in_month
  rw [m.ofDays_days]
  unfold MarchDate.civil marchDays at *
  dsimp only
  split <;> omega

/-- A day is not before the first of its month, and before the first of the next. -/
theorem Civil.ofDays_month (n : Int) :
    Civil.days ⟨(Civil.ofDays n).year, (Civil.ofDays n).month, 1⟩ ≤ n ∧
      n < if (Civil.ofDays n).month = 12 then Civil.days ⟨(Civil.ofDays n).year + 1, 1, 1⟩
        else Civil.days ⟨(Civil.ofDays n).year, (Civil.ofDays n).month + 1, 1⟩ := by
  obtain ⟨m, rfl⟩ := MarchDate.exists_days n
  rw [m.ofDays_days, m.first_days]
  exact ⟨by omega, m.next_days⟩

/-- The next day of the same month. -/
theorem Civil.days_succ (c : Civil) :
    Civil.days { c with day := c.day + 1 } = c.days + 1 := by
  unfold Civil.days
  dsimp only
  split <;> omega

/-- The day before has another number. -/
theorem Civil.day_before {c : Civil} (h : c.Common) : (Civil.ofDays (c.days - 1)).day ≠ c.day := by
  have range := Civil.ofDays_range (c.days - 1)
  have before := Civil.days_ofDays (c.days - 1)
  intro same
  by_cases first : c.day = 1
  · -- The day after the first of a month is the second.
    have next := Civil.days_succ (Civil.ofDays (c.days - 1))
    have common : Civil.Common
        { Civil.ofDays (c.days - 1) with day := (Civil.ofDays (c.days - 1)).day + 1 } :=
      ⟨range.1, range.2.1, by dsimp only; omega, by dsimp only; omega⟩
    have back := common.ofDays_days
    rw [next, before, show c.days - 1 + 1 = c.days by omega, h.ofDays_days] at back
    have := congrArg Civil.day back
    dsimp only at this
    omega
  · obtain ⟨year, month, day⟩ := c
    obtain ⟨low, high, pos, le⟩ := h
    dsimp only at *
    have common : Civil.Common ⟨year, month, day - 1⟩ :=
      ⟨low, high, by dsimp only; omega, by dsimp only; omega⟩
    have next := Civil.days_succ ⟨year, month, day - 1⟩
    simp only [show day - 1 + 1 = day by omega] at next
    have back := common.ofDays_days
    rw [show Civil.days ⟨year, month, day - 1⟩ = Civil.days ⟨year, month, day⟩ - 1 by omega] at back
    rw [back] at same
    dsimp only at same
    omega

/-- A month has at least 28 days. -/
theorem Civil.days_month (year : Int) {month : Nat} (low : 1 ≤ month) (high : month < 12) :
    Civil.days ⟨year, month, 1⟩ + 28 ≤ Civil.days ⟨year, month + 1, 1⟩ := by
  have ediv (y : Int) : y.fdiv 400 = y / 400 := Int.fdiv_eq_ediv_of_nonneg _ (by omega)
  simp only [Civil.days, ediv]
  interval_cases month <;> simp <;> omega

theorem Civil.days_december (year : Int) :
    Civil.days ⟨year, 12, 1⟩ + 28 ≤ Civil.days ⟨year + 1, 1, 1⟩ := by
  have ediv (y : Int) : y.fdiv 400 = y / 400 := Int.fdiv_eq_ediv_of_nonneg _ (by omega)
  simp [Civil.days, ediv]
  omega

end Dormitory
