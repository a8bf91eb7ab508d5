import Circulation.Error

/-!
# Fixed due date schedules

A schedule gives the due date of a loan by the range of dates in which the loan was made.
-/

namespace Circulation

/-- Loans made from `start` to `stop`, both included, are due on `due`. -/
structure DueRange where
  start : Date
  stop : Date
  due : Date
  deriving DecidableEq, Repr

def DueRange.covers (r : DueRange) (loanDate : Date) : Bool :=
  r.start ≤ loanDate ∧ loanDate ≤ r.stop

/-- A named list of ranges, in any order. -/
structure Schedule where
  id : String
  ranges : List DueRange
  deriving DecidableEq, Repr

namespace Schedule

/-- The due date in the first range that covers the loan date. -/
def dueDateFor (s : Schedule) (loanDate : Date) : Result Date :=
  match s.ranges.find? (·.covers loanDate) with
  | some r => .ok r.due
  | none => .error (.loanDateOutsideSchedule s.id loanDate)

theorem dueDateFor_eq_ok_iff {s : Schedule} {loanDate due : Date} :
    s.dueDateFor loanDate = .ok due ↔
      ∃ r, s.ranges.find? (·.covers loanDate) = some r ∧ r.due = due := by
  unfold dueDateFor
  cases s.ranges.find? (·.covers loanDate) <;> simp

end Schedule

end Circulation
