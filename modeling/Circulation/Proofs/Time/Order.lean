import Circulation.Time.Moment
import Mathlib.Order.MinMax

/-!
# The order of dates and moments

Dates and the moments of a time line are linearly ordered, and the date of a moment grows with the
moment.
-/

namespace Circulation

namespace Date

instance : LinearOrder Date where
  le_refl a := Int.le_refl a.day
  le_trans _ _ _ := Int.le_trans
  le_antisymm _ _ hab hba := Date.ext (Int.le_antisymm hab hba)
  le_total a b := Int.le_total a.day b.day
  lt_iff_le_not_ge _ _ := Int.lt_iff_le_and_not_ge
  toDecidableLE := inferInstance
  toDecidableLT := inferInstance
  toDecidableEq := inferInstance

end Date

namespace TimeOfDay

variable {a b : TimeOfDay}

theorem eq_iff : a = b ↔ a.second = b.second ∧ a.nano = b.nano := by
  cases a; cases b; simp

theorem lt_def : a < b ↔ a.second < b.second ∨ (a.second = b.second ∧ a.nano < b.nano) := Iff.rfl

theorem le_def : a ≤ b ↔ a.second < b.second ∨ (a.second = b.second ∧ a.nano ≤ b.nano) := Iff.rfl

end TimeOfDay

namespace Moment

variable {f : Frame}

instance : LinearOrder (Moment f) where
  le_refl := Moment.le_refl
  le_trans _ _ _ := Moment.le_trans
  le_antisymm _ _ := Moment.le_antisymm
  le_total := Moment.le_total
  lt_iff_le_not_ge a b := by rw [le_def, le_def, lt_def]; omega
  toDecidableLE := inferInstance
  toDecidableLT := inferInstance
  toDecidableEq := inferInstance

/-- The moment `n` whole seconds after the start of 1970-01-01. -/
def ofSecond (n : Int) : Moment f := ⟨n, 0, TimeOfDay.midnight.nano_lt⟩

/-! ## Dates of moments -/

theorem date_mono {a b : Moment f} (h : a ≤ b) : a.date ≤ b.date := by
  rw [le_def] at h
  rw [Date.le_def]
  simp only [date]
  omega

theorem lt_of_date_lt {a b : Moment f} (h : a.date < b.date) : a < b :=
  Moment.not_le.mp fun hba => (date_mono hba).not_gt h

theorem inRange_iff {m : Moment f} : m.InRange ↔
    86400 * Date.first.day ≤ m.second ∧ m.second < 86400 * (Date.last.day + 1) := by
  simp only [InRange, Date.InRange, Date.le_def, date]
  omega

theorem inRange_of_between {a b m : Moment f} (ha : a.InRange) (hb : b.InRange) (ham : a ≤ m)
    (hmb : m ≤ b) : m.InRange :=
  ⟨ha.1.trans (date_mono ham), (date_mono hmb).trans hb.2⟩

/-! ## Moments that are no leap seconds -/

theorem addSeconds_of_not_leap {m : Moment f} (h : ¬ m.IsLeapSecond) (n : Int) :
    m.addSeconds n = ⟨m.second + n, m.nano, m.nano_lt⟩ :=
  if_neg h

theorem not_leap_of_nano {m : Moment f} (h : m.nano = 0) : ¬ m.IsLeapSecond := by
  simp [IsLeapSecond, h, nanosPerSecond]

end Moment

end Circulation
