import BoxArrow.Timestamp.Text
import Mathlib.Algebra.BigOperators.Group.List.Basic
import Mathlib.Algebra.GroupWithZero.Nat

/-!
# Days and calendar dates

Every day has a date in the calendar, and the date leads back to the day. The year is guessed from
the mean length of the years and set right by one step; within the year, the lengths of the months
are taken off one after another.

## Main definitions

* `BoxArrow.Timestamp.IsValid` — the points in time that there are.

## Main results

* `BoxArrow.Date.daysBefore_yearOf` — the year that a day falls into.
* `BoxArrow.Date.monthAndDay_spec` — the month and the day of the month.
* `BoxArrow.Date.toDay_ofDay`, `BoxArrow.Date.isValid_ofDay` — the date of a day.
* `BoxArrow.Date.year_bounds` — the years that are counted.
-/

namespace BoxArrow

namespace Date

/-! ### Years -/

/-- A day falls into its year. -/
theorem daysBefore_yearOf (n : Int) :
    daysBefore (yearOf n) ≤ n ∧ n < daysBefore (yearOf n + 1) := by
  have hguess : daysBefore (n * 400 / 146097) ≤ n ∧
      n < daysBefore (n * 400 / 146097 + 1 + 1 + 1) := by
    simp only [daysBefore]
    omega
  rw [yearOf]
  generalize n * 400 / 146097 = q at hguess ⊢
  split_ifs with hbefore hafter
  · rw [add_sub_cancel_right]
    exact ⟨hguess.1, hbefore⟩
  · exact ⟨hafter, hguess.2⟩
  · exact ⟨by omega, by omega⟩

/-- The months of a year make up the year. -/
theorem sum_monthLengths (year : Int) :
    daysBefore (year + 1) = daysBefore year + (monthLengths year).sum := by
  have hsum : (monthLengths year).sum = if isLeap year then 366 else 365 := by
    rw [monthLengths]
    split_ifs <;> rfl
  have hleap : isLeap year = true ↔ year % 4 = 0 ∧ (year % 100 ≠ 0 ∨ year % 400 = 0) := by
    simp [isLeap]
  rw [hsum]
  simp only [daysBefore]
  split_ifs with h
  · rw [hleap] at h
    omega
  · rw [hleap] at h
    omega

theorem daysBefore_mono {a b : Int} (h : a ≤ b) : daysBefore a ≤ daysBefore b := by
  simp only [daysBefore]
  omega

/-! ### Months -/

/-- A day that is counted from the start of some months falls into one of them. -/
theorem monthAndDay_spec (month : Nat) {lengths : List Nat} {n : Nat} (h : n < lengths.sum) :
    ∃ j, ∃ hj : j < lengths.length, (monthAndDay month lengths n).1 = month + j ∧
      1 ≤ (monthAndDay month lengths n).2 ∧ (monthAndDay month lengths n).2 ≤ lengths[j] ∧
      (lengths.take j).sum + ((monthAndDay month lengths n).2 - 1) = n := by
  induction lengths generalizing month n with
  | nil => exact absurd h (Nat.not_lt_zero n)
  | cons length rest ih =>
    rw [monthAndDay]
    split_ifs with hfirst
    · exact ⟨0, Nat.succ_pos _, rfl, Nat.succ_pos n, hfirst, by simp⟩
    · rw [List.sum_cons] at h
      obtain ⟨j, hj, hmonth, hlow, hhigh, hsum⟩ := ih (month + 1) (n := n - length) (by omega)
      refine ⟨j + 1, Nat.succ_lt_succ hj, by omega, hlow, hhigh, ?_⟩
      rw [List.take_succ_cons, List.sum_cons]
      omega

/-! ### Dates -/

/-- The parts of the date of a day. -/
theorem exists_ofDay_eq (day : Int) :
    ∃ j d, ∃ hj : j < (monthLengths (yearOf (day + epoch))).length,
      ofDay day = ⟨yearOf (day + epoch), 1 + j, d⟩ ∧ 1 ≤ d ∧
      d ≤ (monthLengths (yearOf (day + epoch)))[j] ∧
      (((monthLengths (yearOf (day + epoch))).take j).sum + (d - 1) : Nat) =
        day + epoch - daysBefore (yearOf (day + epoch)) := by
  obtain ⟨hlow, hhigh⟩ := daysBefore_yearOf (day + epoch)
  rw [sum_monthLengths] at hhigh
  rw [ofDay]
  dsimp only
  generalize yearOf (day + epoch) = year at hlow hhigh ⊢
  have hwithin : (day + epoch - daysBefore year).toNat < (monthLengths year).sum := by omega
  obtain ⟨j, hj, hmonth, hfirst, hlast, hsum⟩ := monthAndDay_spec 1 hwithin
  refine ⟨j, _, hj, ?_, hfirst, hlast, by omega⟩
  rw [← hmonth]

/-- The date of a day leads back to it. -/
theorem toDay_ofDay (day : Int) : (ofDay day).toDay = day := by
  obtain ⟨j, d, hj, hdate, -, -, hsum⟩ := exists_ofDay_eq day
  rw [hdate, toDay, daysOfMonthsBefore, Nat.add_sub_cancel_left, ← List.sum_eq_foldl]
  dsimp only
  omega

/-- The date of a day is in the calendar. -/
theorem isValid_ofDay (day : Int) : (ofDay day).isValid = true := by
  obtain ⟨j, d, hj, hdate, hfirst, hlast, -⟩ := exists_ofDay_eq day
  rw [hdate, isValid, Nat.add_sub_cancel_left, List.getElem?_eq_getElem hj, Option.getD_some]
  simp [hfirst, hlast]

/-- The month and the day of a date have two digits at most. -/
theorem ofDay_bounds (day : Int) :
    (1 ≤ (ofDay day).month ∧ (ofDay day).month ≤ 12) ∧
      1 ≤ (ofDay day).day ∧ (ofDay day).day ≤ 31 := by
  obtain ⟨j, d, hj, hdate, hfirst, hlast, -⟩ := exists_ofDay_eq day
  have hmonths : (monthLengths (yearOf (day + epoch))).length = 12 := rfl
  have hdays : ∀ l ∈ monthLengths (yearOf (day + epoch)), l ≤ 31 := by
    rw [monthLengths]
    split_ifs <;> decide
  have hlength := hdays _ (List.getElem_mem hj)
  rw [hdate]
  exact ⟨⟨by dsimp only; omega, by dsimp only; omega⟩, hfirst, by dsimp only; omega⟩

end Date

namespace Timestamp

/-- A point in time that there is: on a day that is counted, with its seconds and nanoseconds in
bounds, and with a leap second only at the end of a minute. -/
structure IsValid (t : Timestamp) : Prop where
  day : inRange t.day = true
  second : t.second < 86400
  nano : t.nano < 2000000000
  leap : 1000000000 ≤ t.nano → t.second % 60 = 59

instance (t : Timestamp) : Decidable t.IsValid :=
  decidable_of_iff (inRange t.day = true ∧ t.second < 86400 ∧ t.nano < 2000000000 ∧
      (1000000000 ≤ t.nano → t.second % 60 = 59))
    ⟨fun ⟨hday, hsecond, hnano, hleap⟩ => ⟨hday, hsecond, hnano, hleap⟩,
      fun h => ⟨h.day, h.second, h.nano, h.leap⟩⟩

/-- The years that are counted have six digits at most. -/
theorem year_bounds {day : Int} (h : inRange day = true) :
    -262143 ≤ (Date.ofDay day).year ∧ (Date.ofDay day).year ≤ 262142 := by
  obtain ⟨hlow, hhigh⟩ := Date.daysBefore_yearOf (day + Date.epoch)
  have hyear : (Date.ofDay day).year = Date.yearOf (day + Date.epoch) := rfl
  have hfirst : Date.toDay ⟨-262143, 1, 1⟩ = Date.daysBefore (-262143) - Date.epoch := by decide
  have hlast : Date.toDay ⟨262142, 12, 31⟩ = Date.daysBefore 262143 - 1 - Date.epoch := by decide
  rw [inRange, Bool.and_eq_true, decide_eq_true_iff, decide_eq_true_iff, hfirst, hlast] at h
  rw [hyear]
  generalize Date.yearOf (day + Date.epoch) = year at hlow hhigh ⊢
  constructor
  · by_contra! hbefore
    have := Date.daysBefore_mono (a := year + 1) (b := -262143) (by omega)
    omega
  · by_contra! hafter
    have := Date.daysBefore_mono (a := 262143) (b := year) (by omega)
    omega

end Timestamp

end BoxArrow
