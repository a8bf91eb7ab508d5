import Circulation.DueDate
import Circulation.Proofs.Calendar.Records
import Circulation.Proofs.Period.Move
import Circulation.Proofs.Result

/-!
# Initial due dates

A loan for days, weeks or months is due at the end of the date to which its period leads, whatever
time of day the period leads to. Dates keep their order under a period although instants do not, and
so in a zone of one offset the initial due date comes after the loan date and no earlier for a later
loan or a longer period.
-/

namespace Circulation

namespace Service

variable {s : Service} {offset : Int} {loan loan' : Loan} {policy policy' : LoanPolicy}
  {period period' : Period} {due due' : Instant}

/-- A rolling policy asks for the loan to be due after a positive period. -/
structure AsksFor (s : Service) (loan : Loan) (policy : LoanPolicy) (period : Period)
    (due : Instant) : Prop where
  profile_eq : policy.profile = .rolling
  period_eq : policy.period = some period
  duration_pos : 0 < period.duration
  inRange : loan.loanDate.InRange
  not_leap : ¬ loan.loanDate.IsLeapSecond
  due_eq : s.initialDueDate loan policy = .ok due

theorem initialDueDate_of_rolling (hprofile : policy.profile = .rolling)
    (hperiod : policy.period = some period) (hpos : 0 < period.duration) :
    s.initialDueDate loan policy = (period.plusDate s.zone loan.loanDate >>= fun moved =>
      if period.isShortTerm then .ok moved else s.zone.endOfDay (s.zone.localDate moved)) := by
  have hzero : period.isZero = false := decide_eq_false hpos.ne'
  have hloan : policy.loanPeriod = .ok period := by
    simp [LoanPolicy.loanPeriod, hperiod, Option.filter, hzero]
  simp only [initialDueDate, LoanPolicy.isFixed, hprofile, hloan]
  rfl

namespace AsksFor

/-- The moment to which the period leads, and what becomes of it. -/
theorem exists_moved (h : s.AsksFor loan policy period due) :
    ∃ moved, period.plusDate s.zone loan.loanDate = .ok moved ∧
      (if period.isShortTerm then .ok moved else s.zone.endOfDay (s.zone.localDate moved)) =
        .ok due := by
  have hdue := h.due_eq
  rw [initialDueDate_of_rolling h.profile_eq h.period_eq h.duration_pos] at hdue
  exact Result.bind_eq_ok_iff.mp hdue

/-- Minutes and hours are elapsed time. -/
theorem due_eq_addSeconds (h : s.AsksFor loan policy period due)
    (hshort : period.isShortTerm = true) :
    due = loan.loanDate.addSeconds (60 * period.unit.lengthInMinutes * period.duration) := by
  obtain ⟨moved, hmoved, hdue⟩ := h.exists_moved
  rw [if_pos hshort] at hdue
  obtain rfl := Except.ok.inj hdue
  exact Period.eq_of_shift_short hshort hmoved

/-- Days, weeks and months last until the end of a date. -/
theorem toLocal_due (h : s.AsksFor loan policy period due) (hz : s.zone.IsFixed offset)
    (hlong : period.isShortTerm = false) :
    s.zone.toLocal due =
      (period.unit.dateAfter (s.zone.localDate loan.loanDate) period.duration).at .lastSecond := by
  obtain ⟨moved, hmoved, hdue⟩ := h.exists_moved
  rw [if_neg (Bool.eq_false_iff.mp hlong)] at hdue
  obtain ⟨hrange, hresolve⟩ := Period.resolve_of_shift_long hlong h.not_leap hmoved
  -- The period leads to a later date, and so not to a time before the calendar begins.
  have hearly : 86400 * Date.first.day ≤ ((s.zone.toLocal loan.loanDate).onDate
      (period.unit.dateAfter (s.zone.localDate loan.loanDate) period.duration)).second -
        offset := by
    have hlater := Date.lt_def.mp
      (period.unit.lt_dateAfter (s.zone.localDate loan.loanDate) h.duration_pos)
    have hloan := (Moment.inRange_iff.mp h.inRange).1
    have hsecond : (s.zone.toLocal loan.loanDate).second = loan.loanDate.second + offset := by
      rw [Zone.toLocal, hz.offsetAt_eq]
    simp only [Moment.onDate, Zone.localDate] at hlater ⊢
    omega
  have hshown := hz.toLocal_of_resolve hearly hresolve
  rw [Zone.localDate, hshown, Moment.date_onDate] at hdue
  exact hz.toLocal_endOfDay (Moment.inRange_onDate.mp hrange) hdue

theorem loanDate_lt_due (h : s.AsksFor loan policy period due) (hz : s.zone.IsFixed offset) :
    loan.loanDate < due := by
  have hpos := h.duration_pos
  cases hshort : period.isShortTerm with
  | true =>
    have hlength := Int.mul_pos period.unit.lengthInSeconds_pos hpos
    rw [h.due_eq_addSeconds hshort, Moment.addSeconds_of_not_leap h.not_leap, Moment.lt_def]
    dsimp only
    omega
  | false =>
    rw [← hz.toLocal_lt_iff, h.toLocal_due hz hshort]
    refine Moment.lt_of_date_lt ?_
    rw [Date.date_at]
    exact period.unit.lt_dateAfter _ hpos

theorem due_mono (h : s.AsksFor loan policy period due)
    (h' : s.AsksFor loan' policy' period' due') (hz : s.zone.IsFixed offset)
    (hunit : period.unit = period'.unit) (hduration : period.duration ≤ period'.duration)
    (hloan : loan.loanDate ≤ loan'.loanDate) : due ≤ due' := by
  have hshort' : period'.isShortTerm = period.isShortTerm := by simp [Period.isShortTerm, hunit]
  cases hshort : period.isShortTerm with
  | true =>
    have hlength : 60 * period.unit.lengthInMinutes * period.duration ≤
        60 * period.unit.lengthInMinutes * period'.duration :=
      Int.mul_le_mul_of_nonneg_left hduration period.unit.lengthInSeconds_pos.le
    rw [h.due_eq_addSeconds hshort, h'.due_eq_addSeconds (hshort'.trans hshort), ← hunit,
      Moment.addSeconds_of_not_leap h.not_leap, Moment.addSeconds_of_not_leap h'.not_leap]
    rw [Moment.le_def] at hloan ⊢
    dsimp only
    omega
  | false =>
    have hdate := period.unit.dateAfter_mono (hz.localDate_mono hloan) hduration
    rw [Date.le_def] at hdate
    rw [← hz.toLocal_le_iff, h.toLocal_due hz hshort, h'.toLocal_due hz (hshort'.trans hshort),
      ← hunit, Moment.le_def]
    simp only [Date.at]
    omega

end AsksFor

/-- In a zone of one offset a rolling loan is due after it is made, and for one unit no earlier if
it is made later or for longer. Months alone do not keep the order of instants. -/
theorem initialDueDate_ordered (hz : s.zone.IsFixed offset) :
    (∀ loan policy period due, s.AsksFor loan policy period due → loan.loanDate < due) ∧
    (∀ loan loan' policy policy' period period' due due', s.AsksFor loan policy period due →
      s.AsksFor loan' policy' period' due' → period.unit = period'.unit →
      loan.loanDate ≤ loan'.loanDate → period.duration ≤ period'.duration → due ≤ due') ∧
    ∃ early late moved moved', early < late ∧
      Period.plusDate ⟨1, .months⟩ Zone.utc early = .ok moved ∧
      Period.plusDate ⟨1, .months⟩ Zone.utc late = .ok moved' ∧ moved' < moved := by
  refine ⟨fun loan policy period due h => h.loanDate_lt_due hz, ?_, ?_⟩
  · intro loan loan' policy policy' period period' due due' h h' hunit hloan hduration
    exact h.due_mono h' hz hunit hduration hloan
  · -- Noon of 30 January and ten o'clock of the 31st both move to 28 February.
    refine ⟨.ofSecond 1769774400, .ofSecond 1769853600, .ofSecond 1772280000, .ofSecond 1772272800,
      ?_, ?_, ?_, ?_⟩
    all_goals decide

def monthly : LoanPolicy := .rolling "monthly" ⟨1, .months⟩ .keepCurrentDateTime

/-- A loan made at a second of universal time. -/
def loanAt (second : Int) : Loan := .ofCheckout "loan" (.ofSecond second) (.ofSecond second) .zero

/-- The same two times of day in Kathmandu. Both loans are due at the end of 28 February. -/
theorem initialDueDate_ordered_january :
    let s : Service := ⟨.empty, Zone.kathmandu⟩
    s.zone.IsFixed 20700 ∧
    s.AsksFor (loanAt 1769753700) monthly ⟨1, .months⟩ (.ofSecond 1772302499) ∧
    s.AsksFor (loanAt 1769832900) monthly ⟨1, .months⟩ (.ofSecond 1772302499) ∧
    (loanAt 1769753700).loanDate < .ofSecond 1772302499 ∧
    (.ofSecond 1772302499 : Instant) ≤ .ofSecond 1772302499 := by
  intro s
  have hz : s.zone.IsFixed 20700 :=
    Zone.constant_isFixed "Asia/Kathmandu" (by decide) (by decide)
  have early : s.AsksFor (loanAt 1769753700) monthly ⟨1, .months⟩ (.ofSecond 1772302499) :=
    ⟨rfl, rfl, by decide, by decide, by decide, by decide⟩
  have late : s.AsksFor (loanAt 1769832900) monthly ⟨1, .months⟩ (.ofSecond 1772302499) :=
    ⟨rfl, rfl, by decide, by decide, by decide, by decide⟩
  obtain ⟨hafter, hmono, -⟩ := initialDueDate_ordered (s := s) hz
  exact ⟨hz, early, late, hafter _ _ _ _ early,
    hmono _ _ _ _ _ _ _ _ early late rfl (by decide) le_rfl⟩

end Service

end Circulation
