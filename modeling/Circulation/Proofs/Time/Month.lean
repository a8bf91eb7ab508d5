import Circulation.Proofs.Time.Order
import Mathlib.Algebra.Order.Group.Int
import Mathlib.Tactic.IntervalCases

/-!
# Months

The months of the calendar, numbered in order of time, lie end to end and have 28 to 31 days each. A
date is a day of one of them. Moving a date by months keeps the day of the month where the month it
comes to has it and otherwise takes that month's last day, so the order of dates is kept, but two
moves there and back need not end where they began.
-/

namespace Circulation

namespace Date

variable {a b d : Date} {m n : Int}

/-! ## Years -/

theorem yearStart_succ (year : Int) :
    yearStart (year + 1) = yearStart year + 365 + leapDays year := by
  unfold yearStart leapDays isLeap
  split
  · rename_i h
    simp only [decide_eq_true_eq] at h
    omega
  · rename_i h
    simp only [decide_eq_true_eq] at h
    omega

theorem leapDays_le (year : Int) : leapDays year ≤ 1 := by
  unfold leapDays
  split <;> omega

theorem monthOf_bounds (l k : Nat) : 1 ≤ monthOf l k ∧ monthOf l k ≤ 12 := by
  unfold monthOf
  repeat'
    refine iteInduction (motive := fun month => 1 ≤ month ∧ month ≤ 12) (fun _ => ?_) fun _ => ?_
  all_goals omega

theorem lt_daysBefore_monthOf_succ {l k : Nat} (h : k < 365 + l) :
    k < daysBefore l (monthOf l k + 1) := by
  unfold monthOf
  repeat'
    refine iteInduction (motive := fun month => k < daysBefore l (month + 1)) (fun _ => ?_)
      fun _ => ?_
  all_goals simp only [daysBefore]; omega

theorem daysBefore_succ_bounds {l month : Nat} (hl : l ≤ 1) (hfirst : 1 ≤ month)
    (hlast : month ≤ 12) :
    daysBefore l month + 28 ≤ daysBefore l (month + 1) ∧
      daysBefore l (month + 1) ≤ daysBefore l month + 31 := by
  interval_cases month <;> simp only [daysBefore] <;> omega

/-! ## Numbered months -/

/-- The day number of the first day of a month. Month 0 is January of year 0. -/
def monthStart (m : Int) : Int :=
  yearStart (m / 12) + daysBefore (leapDays (m / 12)) ((m % 12).toNat + 1)

/-- The number of days of a month. -/
def lengthOfMonth (m : Int) : Nat := monthLength (m / 12) ((m % 12).toNat + 1)

/-- The number of the month in which a date falls. -/
def monthNumber (d : Date) : Int := 12 * d.civil.year + (d.civil.month - 1)

theorem lengthOfMonth_bounds (m : Int) : 28 ≤ lengthOfMonth m ∧ lengthOfMonth m ≤ 31 := by
  have hbounds := daysBefore_succ_bounds (leapDays_le (m / 12))
    (show 1 ≤ (m % 12).toNat + 1 by omega) (by omega)
  unfold lengthOfMonth monthLength
  omega

theorem monthStart_succ (m : Int) : monthStart (m + 1) = monthStart m + lengthOfMonth m := by
  have hbounds := daysBefore_succ_bounds (leapDays_le (m / 12))
    (show 1 ≤ (m % 12).toNat + 1 by omega) (by omega)
  unfold monthStart lengthOfMonth monthLength
  by_cases hlast : m % 12 = 11
  · -- December is followed by January of the next year.
    rw [show (m + 1) / 12 = m / 12 + 1 by omega, show (m + 1) % 12 = 0 by omega, yearStart_succ,
      hlast]
    simp only [daysBefore, Int.toNat]
    omega
  · rw [show (m + 1) / 12 = m / 12 by omega,
      show ((m + 1) % 12).toNat = (m % 12).toNat + 1 by omega]
    omega

/-- The start of a month, `n` months ahead, is 28 to 31 days a month ahead. -/
theorem monthStart_add_bounds (m : Int) (hn : 0 ≤ n) :
    monthStart m + 28 * n ≤ monthStart (m + n) ∧ monthStart (m + n) ≤ monthStart m + 31 * n := by
  induction n, hn using Int.leInduction with
  | base => simp
  | succ n _ ih =>
    have hlength := lengthOfMonth_bounds (m + n)
    have hsucc := monthStart_succ (m + n)
    rw [← Int.add_assoc]
    omega

theorem monthStart_le_iff : monthStart m ≤ monthStart n ↔ m ≤ n := by
  rcases Int.le_total m n with h | h
  · have hbounds := monthStart_add_bounds m (Int.sub_nonneg_of_le h)
    rw [add_sub_cancel] at hbounds
    omega
  · have hbounds := monthStart_add_bounds n (Int.sub_nonneg_of_le h)
    rw [add_sub_cancel] at hbounds
    omega

/-! ## Dates in their months -/

theorem civil_year (d : Date) : d.civil.year = d.monthNumber / 12 := by
  have hmonth : 1 ≤ d.civil.month ∧ d.civil.month ≤ 12 := monthOf_bounds _ _
  unfold monthNumber
  omega

theorem civil_month (d : Date) : d.civil.month = (d.monthNumber % 12).toNat + 1 := by
  have hmonth : 1 ≤ d.civil.month ∧ d.civil.month ≤ 12 := monthOf_bounds _ _
  unfold monthNumber
  omega

theorem civil_eq (d : Date) :
    d.civil = ⟨d.monthNumber / 12, (d.monthNumber % 12).toNat + 1, d.civil.day⟩ := by
  rw [← civil_year, ← civil_month]

/-- The day of the month is counted from the start of the month. -/
theorem monthStart_monthNumber (d : Date) :
    monthStart d.monthNumber + d.civil.day = d.day + 1 := by
  have hstart := yearStart_yearOf_le d.day
  have hbefore := daysBefore_monthOf_le (leapDays (yearOf d.day))
    (d.day - yearStart (yearOf d.day)).toNat
  rw [monthStart, ← civil_year, ← civil_month]
  simp only [civil]
  omega

theorem civil_day_pos (d : Date) : 1 ≤ d.civil.day := by
  simp [civil]

theorem civil_day_le (d : Date) : d.civil.day ≤ lengthOfMonth d.monthNumber := by
  have hstart := yearStart_yearOf_le d.day
  have hend := lt_yearStart_yearOf_succ d.day
  rw [yearStart_succ] at hend
  have hbefore := daysBefore_monthOf_le (leapDays (yearOf d.day))
    (d.day - yearStart (yearOf d.day)).toNat
  have hlt := lt_daysBefore_monthOf_succ (l := leapDays (yearOf d.day))
    (k := (d.day - yearStart (yearOf d.day)).toNat) (by omega)
  rw [lengthOfMonth, ← civil_year, ← civil_month]
  simp only [civil, monthLength]
  omega

/-- A date falls in a month or in a later one just where it does not come before the month. -/
theorem le_monthNumber_iff : m ≤ d.monthNumber ↔ monthStart m ≤ d.day := by
  have hday := monthStart_monthNumber d
  have hpos := civil_day_pos d
  have hle := civil_day_le d
  have hsucc := monthStart_succ d.monthNumber
  refine ⟨fun h => ?_, fun h => ?_⟩
  · have hstart := monthStart_le_iff.mpr h
    omega
  · have hnext := monthStart_le_iff (m := d.monthNumber + 1) (n := m)
    omega

theorem monthNumber_mono (h : a ≤ b) : a.monthNumber ≤ b.monthNumber := by
  rw [le_monthNumber_iff]
  exact (le_monthNumber_iff.mp le_rfl).trans h

theorem monthNumber_eq (hstart : monthStart m ≤ d.day) (hend : d.day < monthStart (m + 1)) :
    d.monthNumber = m := by
  have hle := le_monthNumber_iff.mpr hstart
  have hlt := le_monthNumber_iff (d := d) (m := m + 1)
  omega

/-- The dates that can be represented are those of whole years. -/
theorem inRange_iff_year :
    d.InRange ↔ first.civil.year ≤ d.civil.year ∧ d.civil.year ≤ last.civil.year := by
  have hfirst : monthStart (12 * first.civil.year) = first.day := by decide
  have hlast : monthStart (12 * (last.civil.year + 1)) = last.day + 1 := by decide
  have hlo := le_monthNumber_iff (d := d) (m := 12 * first.civil.year)
  have hhi := le_monthNumber_iff (d := d) (m := 12 * (last.civil.year + 1))
  rw [civil_year d]
  simp only [InRange, le_def]
  omega

theorem monthNumber_bounds (h : d.InRange) :
    12 * -262143 ≤ d.monthNumber ∧ d.monthNumber < 12 * 262143 := by
  have hfirst : first.civil.year = -262143 := by decide
  have hlast : last.civil.year = 262142 := by decide
  rw [inRange_iff_year, hfirst, hlast, civil_year] at h
  omega

/-! ## Moving by months -/

theorem day_addMonths (d : Date) (n : Int) :
    (d.addMonths n).day + 1 = monthStart (d.monthNumber + n) +
      min d.civil.day (lengthOfMonth (d.monthNumber + n)) := by
  simp only [addMonths, ofCivil, monthStart, lengthOfMonth, monthNumber]
  omega

theorem monthNumber_addMonths (d : Date) (n : Int) :
    (d.addMonths n).monthNumber = d.monthNumber + n := by
  have hday := day_addMonths d n
  have hpos := civil_day_pos d
  have hlength := lengthOfMonth_bounds (d.monthNumber + n)
  have hsucc := monthStart_succ (d.monthNumber + n)
  exact monthNumber_eq (by omega) (by omega)

theorem civil_day_addMonths (d : Date) (n : Int) :
    (d.addMonths n).civil.day = min d.civil.day (lengthOfMonth (d.monthNumber + n)) := by
  have hday := day_addMonths d n
  have hstart := monthStart_monthNumber (d.addMonths n)
  rw [monthNumber_addMonths] at hstart
  omega

theorem inRange_addMonths_iff : (d.addMonths n).InRange ↔
    first.civil.year ≤ (d.monthNumber + n) / 12 ∧
      (d.monthNumber + n) / 12 ≤ last.civil.year := by
  rw [inRange_iff_year, civil_year (d.addMonths n), monthNumber_addMonths]

/-- Moving by months can take different days of one month to the same day, but never past each
other. -/
theorem addMonths_mono (h : a ≤ b) (hmn : m ≤ n) : a.addMonths m ≤ b.addMonths n := by
  have ha := day_addMonths a m
  have hb := day_addMonths b n
  rw [le_def]
  rcases (add_le_add (monthNumber_mono h) hmn).eq_or_lt with heq | hlt
  · rw [heq] at ha
    have hday : a.monthNumber = b.monthNumber → a.civil.day ≤ b.civil.day := by
      intro hsame
      have hastart := monthStart_monthNumber a
      have hbstart := monthStart_monthNumber b
      rw [le_def] at h
      rw [hsame] at hastart
      omega
    have hmono := monthNumber_mono h
    omega
  · have hlength := lengthOfMonth_bounds (b.monthNumber + n)
    have hpos := civil_day_pos b
    have hsucc := monthStart_succ (a.monthNumber + m)
    have hnext := monthStart_le_iff.mpr (Int.add_one_le_of_lt hlt)
    omega

/-- Moving ahead by months takes 28 to 31 days a month. -/
theorem addMonths_bounds (d : Date) (hn : 0 ≤ n) :
    d.day + 28 * n ≤ (d.addMonths n).day ∧ (d.addMonths n).day ≤ d.day + 31 * n := by
  have hday := day_addMonths d n
  have hstart := monthStart_monthNumber d
  have hle := civil_day_le d
  have hbounds := monthStart_add_bounds d.monthNumber hn
  -- A day that the later month does not have stays before the month after that one.
  have hnext := monthStart_add_bounds (d.monthNumber + 1) hn
  rw [show d.monthNumber + 1 + n = d.monthNumber + n + 1 by omega, monthStart_succ,
    monthStart_succ] at hnext
  omega

/-- Moving back by months takes 28 to 31 days a month. -/
theorem addMonths_neg_bounds (d : Date) (hn : 0 ≤ n) :
    d.day - 31 * n ≤ (d.addMonths (-n)).day ∧ (d.addMonths (-n)).day ≤ d.day - 28 * n := by
  have hday := day_addMonths d (-n)
  have hstart := monthStart_monthNumber d
  have hle := civil_day_le d
  have hlength := lengthOfMonth_bounds d.monthNumber
  have hsucc := monthStart_succ (d.monthNumber + -n)
  have hbounds := monthStart_add_bounds (d.monthNumber + -n) hn
  rw [Int.neg_add_cancel_right] at hbounds
  rcases hn.eq_or_lt with rfl | hpos
  · simp only [Int.neg_zero, Int.add_zero] at *
    omega
  -- A day that the earlier month does not have counts from the month after that one.
  have hnext := monthStart_add_bounds (d.monthNumber + -n + 1) (Int.sub_nonneg_of_le hpos)
  rw [show d.monthNumber + -n + 1 + (n - (0 + 1)) = d.monthNumber by omega] at hnext
  omega

theorem eq_of_monthNumber (hmonth : a.monthNumber = b.monthNumber)
    (hday : a.civil.day = b.civil.day) : a = b := by
  have ha := monthStart_monthNumber a
  have hb := monthStart_monthNumber b
  rw [hmonth] at ha
  exact Date.ext (by omega)

/-- Moving back by months and ahead again leads to the same month, on the day of it that the
earlier month has too. -/
theorem civil_addMonths_neg_add (d : Date) (n : Int) :
    ((d.addMonths (-n)).addMonths n).civil =
      { d.civil with day := min d.civil.day (lengthOfMonth (d.monthNumber - n)) } := by
  have hmonth : ((d.addMonths (-n)).addMonths n).monthNumber = d.monthNumber := by
    rw [monthNumber_addMonths, monthNumber_addMonths, Int.neg_add_cancel_right]
  have hday : ((d.addMonths (-n)).addMonths n).civil.day =
      min d.civil.day (lengthOfMonth (d.monthNumber - n)) := by
    have hle := civil_day_le d
    rw [civil_day_addMonths, civil_day_addMonths, monthNumber_addMonths, Int.neg_add_cancel_right,
      Int.sub_eq_add_neg]
    omega
  rw [civil_eq ((d.addMonths (-n)).addMonths n), hmonth, hday, ← civil_year, ← civil_month]

theorem addMonths_neg_add_of_le (h : d.civil.day ≤ lengthOfMonth (d.monthNumber - n)) :
    (d.addMonths (-n)).addMonths n = d := by
  have hcivil := civil_addMonths_neg_add d n
  rw [min_eq_left h] at hcivil
  refine eq_of_monthNumber ?_ (congrArg Civil.day hcivil)
  rw [monthNumber_addMonths, monthNumber_addMonths, Int.neg_add_cancel_right]

end Date

end Circulation
