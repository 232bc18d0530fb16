/-
**Days and dates number each other.**  The years cut the days into stretches, one after another, and
the months cut each of these.  A day is found in them by what lies before it, so every day has one
date of the calendar and every date of the calendar is that of its own day.

Main definitions:
* `Date.daysOfAll` — the number of days of all months.

Main results:
* `Date.monthAndDay_eq_iff` — a day among months, by the days of the months before it;
* `Date.daysBefore_succ`, `Date.daysBefore_mono` — the years follow each other, month by month;
* `Date.le_yearOf_iff`, `Date.yearOf_eq_iff` — the year of a day, by the days before it;
* `Date.toDay_ofDay`, `Date.ofDay_toDay`, `Date.isValid_ofDay` — **days and valid dates are one**.
-/

import LambdaQuery.Timestamp.Calendar

namespace LambdaQuery.Date

/-! ### Months -/

/-- The number of days of all months. -/
def daysOfAll (lengths : List Nat) : Nat := daysOfMonths lengths.length lengths

theorem daysOfAll_cons (length : Nat) (rest : List Nat) :
    daysOfAll (length :: rest) = length + daysOfAll rest := rfl

/-- A day of one of the months is a day of all of them. -/
theorem daysOfMonths_add_lt {lengths : List Nat} : ∀ {m k : Nat}, k < lengths.getD m 0 →
    daysOfMonths m lengths + k < daysOfAll lengths := by
  induction lengths with
  | nil =>
      intro m k h
      simp at h
  | cons length rest ih =>
      intro m k h
      cases m with
      | zero =>
          simp only [List.getD_cons_zero] at h
          simp only [daysOfMonths, daysOfAll_cons]
          omega
      | succ m =>
          have hrest := ih (m := m) (k := k) (by simpa using h)
          simp only [daysOfMonths, daysOfAll_cons]
          omega

/-- The month of a day and the day of that month are told by the days of the months before it. -/
theorem monthAndDay_eq_iff {lengths : List Nat} : ∀ {n m k : Nat}, n < daysOfAll lengths →
    (monthAndDay lengths n = (m, k) ↔ k < lengths.getD m 0 ∧ daysOfMonths m lengths + k = n) := by
  -- the day is counted from the start of the months that are left
  induction lengths with
  | nil =>
      intro n m k h
      exact absurd h (Nat.not_lt_zero n)
  | cons length rest ih =>
      intro n m k h
      rw [daysOfAll_cons] at h
      rw [monthAndDay]
      split
      · rename_i hn
        cases m with
        | zero =>
            simp only [Prod.mk.injEq, true_and, List.getD_cons_zero, daysOfMonths]
            omega
        | succ m =>
            simp only [Prod.mk.injEq, List.getD_cons_succ, daysOfMonths]
            omega
      · rename_i hn
        have hrest (m : Nat) := ih (n := n - length) (m := m) (k := k) (by omega)
        cases m with
        | zero =>
            simp only [Prod.mk.injEq, List.getD_cons_zero, daysOfMonths]
            omega
        | succ m =>
            have hpair :
                ((monthAndDay rest (n - length)).1 + 1, (monthAndDay rest (n - length)).2) =
                  (m + 1, k) ↔ monthAndDay rest (n - length) = (m, k) := by
              rw [Prod.ext_iff, Prod.ext_iff]
              simp
            rw [hpair, hrest m, List.getD_cons_succ, daysOfMonths]
            omega

theorem daysOfAll_monthLengths (leap : Bool) :
    daysOfAll (monthLengths leap) = if leap then 366 else 365 := by
  cases leap <;> rfl

/-! ### Years -/

/-- After the days of a year the next one starts. -/
theorem daysBefore_succ (year : Int) :
    daysBefore (year + 1) = daysBefore year + daysOfAll (monthLengths (isLeap year)) := by
  have hleap : isLeap year = true ↔ year % 4 = 0 ∧ (¬ year % 100 = 0 ∨ year % 400 = 0) := by
    simp [isLeap]
  rw [daysOfAll_monthLengths, daysBefore, daysBefore]
  split
  · rename_i h
    rw [hleap] at h
    omega
  · rename_i h
    rw [hleap] at h
    omega

/-- A year starts after the years before it. -/
theorem daysBefore_mono {a b : Int} (h : a ≤ b) : daysBefore a ≤ daysBefore b := by
  rw [daysBefore, daysBefore]
  omega

/-- The year that is found for a day has begun, and it has not ended. -/
theorem yearOf_spec (n : Int) : daysBefore (yearOf n) ≤ n ∧ n < daysBefore (yearOf n + 1) := by
  -- four centuries have 146097 days; the rounding of the leap days is worth less than a year
  have hguess : daysBefore (n * 400 / 146097) ≤ n ∧
      n < daysBefore (n * 400 / 146097 + 1 + 1 + 1) := by
    rw [daysBefore, daysBefore]
    omega
  rw [yearOf]
  split
  · rename_i h
    rw [Int.add_sub_cancel]
    exact ⟨hguess.1, h⟩
  · rename_i hlow
    split
    · rename_i hhigh
      exact ⟨hhigh, hguess.2⟩
    · rename_i hhigh
      exact ⟨Int.not_lt.mp hlow, Int.not_le.mp hhigh⟩

/-- A day lies in a year or after it when the year begins with it or before it. -/
theorem le_yearOf_iff {year n : Int} : year ≤ yearOf n ↔ daysBefore year ≤ n := by
  obtain ⟨hlow, hhigh⟩ := yearOf_spec n
  constructor
  · intro h
    exact Int.le_trans (daysBefore_mono h) hlow
  · intro h
    refine Int.not_lt.mp fun hlt => ?_
    have hnext : daysBefore (yearOf n + 1) ≤ daysBefore year := daysBefore_mono hlt
    omega

theorem yearOf_eq_iff {year n : Int} :
    yearOf n = year ↔ daysBefore year ≤ n ∧ n < daysBefore (year + 1) := by
  have hlow : year ≤ yearOf n ↔ daysBefore year ≤ n := le_yearOf_iff
  have hhigh : year + 1 ≤ yearOf n ↔ daysBefore (year + 1) ≤ n := le_yearOf_iff
  omega

/-! ### Dates -/

/-- The days of the year up to a valid date. -/
theorem IsValid.day_lt {d : Date} (h : d.IsValid) :
    daysOfMonths (d.month - 1) (monthLengths (isLeap d.year)) + (d.day - 1) <
      daysOfAll (monthLengths (isLeap d.year)) := by
  obtain ⟨-, -, hday, hlength⟩ := h
  exact daysOfMonths_add_lt (by omega)

/-- No month is longer than 31 days. -/
theorem IsValid.day_le {d : Date} (h : d.IsValid) : d.day ≤ 31 := by
  have hlengths : ∀ leap, ∀ m < 12, (monthLengths leap).getD m 0 ≤ 31 := by decide
  obtain ⟨hmonth, hlast, -, hlength⟩ := h
  exact Nat.le_trans hlength (hlengths _ _ (by omega))

/-- The day of a valid date lies in its year. -/
theorem IsValid.yearOf_toDay {d : Date} (h : d.IsValid) : yearOf d.toDay = d.year := by
  have hday := h.day_lt
  rw [yearOf_eq_iff, daysBefore_succ, toDay]
  omega

/-- The place of a day in its year. -/
theorem toNat_lt_daysOfAll (n : Int) :
    (n - daysBefore (yearOf n)).toNat < daysOfAll (monthLengths (isLeap (yearOf n))) := by
  obtain ⟨hlow, hhigh⟩ := yearOf_spec n
  rw [daysBefore_succ] at hhigh
  omega

/-- What is found for a day is a month and a day of it, by which the day is numbered. -/
theorem ofDay_spec (n : Int) : ∃ m k, ofDay n = ⟨yearOf n, m + 1, k + 1⟩ ∧
    k < (monthLengths (isLeap (yearOf n))).getD m 0 ∧
      daysOfMonths m (monthLengths (isLeap (yearOf n))) + k = (n - daysBefore (yearOf n)).toNat :=
  ⟨_, _, rfl, (monthAndDay_eq_iff (toNat_lt_daysOfAll n)).mp rfl⟩

/-- **Every day has the number of its date.** -/
theorem toDay_ofDay (n : Int) : (ofDay n).toDay = n := by
  obtain ⟨m, k, hdate, -, hplace⟩ := ofDay_spec n
  have hlow := (yearOf_spec n).1
  have hday : toDay ⟨yearOf n, m + 1, k + 1⟩ =
      daysBefore (yearOf n) + (n - daysBefore (yearOf n)).toNat := by
    rw [← hplace]
    rfl
  rw [hdate, hday]
  omega

/-- **The date of a day is one of the calendar.** -/
theorem isValid_ofDay (n : Int) : (ofDay n).IsValid := by
  obtain ⟨m, k, hdate, hday, -⟩ := ofDay_spec n
  have hmonth : m < 12 := by
    refine Nat.not_le.mp fun hge => ?_
    rw [List.getD_eq_getElem?_getD, List.getElem?_eq_none hge] at hday
    exact absurd hday (Nat.not_lt_zero k)
  rw [hdate]
  refine ⟨Nat.le_add_left 1 m, hmonth, Nat.le_add_left 1 k, ?_⟩
  rw [Nat.add_sub_cancel]
  exact hday

/-- **A date of the calendar is that of its day.** -/
theorem ofDay_toDay {d : Date} (h : d.IsValid) : ofDay d.toDay = d := by
  have hyear := h.yearOf_toDay
  have hplace : (d.toDay - daysBefore d.year).toNat =
      daysOfMonths (d.month - 1) (monthLengths (isLeap d.year)) + (d.day - 1) := by
    rw [toDay]
    omega
  obtain ⟨hmonth, -, hday, hlength⟩ := h
  have hfound : monthAndDay (monthLengths (isLeap d.year)) (d.toDay - daysBefore d.year).toNat =
      (d.month - 1, d.day - 1) := by
    rw [hplace, monthAndDay_eq_iff (daysOfMonths_add_lt (by omega))]
    exact ⟨by omega, rfl⟩
  rw [ofDay, hyear, hfound]
  obtain ⟨year, month, day⟩ := d
  simp only [mk.injEq, true_and]
  exact ⟨Nat.sub_add_cancel hmonth, Nat.sub_add_cancel hday⟩

/-- The last day of a leap year of a whole century is followed by the first of the next year. -/
example : ofDay ((Date.mk 2000 12 31).toDay + 1) = ⟨2001, 1, 1⟩ := by decide

end LambdaQuery.Date
