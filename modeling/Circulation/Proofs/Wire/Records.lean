import Circulation.Proofs.Wire.Reads
import Circulation.Wire.Loan
import Circulation.Wire.Opening
import Circulation.Wire.Policy

/-!
# Records

What each record is read as, if its parts can be written: their numbers fit, their dates can be
represented and their zones are found by their names. For policies it depends on their periods,
since a period that is not positive can be made and written, but not read. All others are read as
they are but for leap seconds inside a minute. How deep they are depends only on the values of any
form that an audit step has.
-/

namespace Circulation

/-! ## What can be written -/

/-- The duration is one of 64 bits. -/
def Period.Writable (p : Period) : Prop := minDuration ≤ p.duration ∧ p.duration ≤ maxDuration

instance (p : Period) : Decidable p.Writable := inferInstanceAs (Decidable (_ ∧ _))

/-- The three dates can be represented. -/
@[mk_iff]
structure DueRange.Writable (r : DueRange) : Prop where
  start : r.start.InRange
  stop : r.stop.InRange
  due : r.due.InRange

instance (r : DueRange) : Decidable r.Writable := decidable_of_iff _ (DueRange.writable_iff r).symm

def Schedule.Writable (s : Schedule) : Prop := ∀ r ∈ s.ranges, r.Writable

instance (s : Schedule) : Decidable s.Writable := inferInstanceAs (Decidable (∀ r ∈ _, _))

/-- The periods of a policy, in the order in which they are written. -/
def LoanPolicy.periods (p : LoanPolicy) : List Period :=
  p.period.toList ++ p.openingOffset.toList

@[mk_iff]
structure LoanPolicy.Writable (p : LoanPolicy) : Prop where
  periods : ∀ q ∈ p.periods, q.Writable
  schedule : ∀ s ∈ p.schedule, s.Writable
  limit : ∀ s ∈ p.limit, s.Writable

instance (p : LoanPolicy) : Decidable p.Writable :=
  decidable_of_iff _ (LoanPolicy.writable_iff p).symm

def FinePolicy.periods (p : FinePolicy) : List Period := p.gracePeriod.toList

def FinePolicy.Writable (p : FinePolicy) : Prop := ∀ q ∈ p.periods, q.Writable

instance (p : FinePolicy) : Decidable p.Writable := inferInstanceAs (Decidable (∀ q ∈ _, _))

/-- The date can be represented, and the table has the zone under its name. -/
@[mk_iff]
structure OpeningDay.Writable (zones : Zone.Table) (d : OpeningDay) : Prop where
  date : d.date.InRange
  zone : zones d.zone.name = some d.zone

instance (zones : Zone.Table) (d : OpeningDay) : Decidable (d.Writable zones) :=
  decidable_of_iff _ (OpeningDay.writable_iff zones d).symm

@[mk_iff]
structure AdjacentDays.Writable (zones : Zone.Table) (a : AdjacentDays) : Prop where
  previous : a.previous.Writable zones
  requested : a.requested.Writable zones
  next : a.next.Writable zones

instance (zones : Zone.Table) (a : AdjacentDays) : Decidable (a.Writable zones) :=
  decidable_of_iff _ (AdjacentDays.writable_iff zones a).symm

@[mk_iff]
structure Loan.Writable (l : Loan) : Prop where
  loanDate : l.loanDate.InRange
  dueDate : l.dueDate.InRange

instance (l : Loan) : Decidable l.Writable := decidable_of_iff _ (Loan.writable_iff l).symm

/-- The value is kept as it is read: its numbers are integers of 64 bits, and its objects are in
order. -/
structure Json.Canonical (j : Json) : Prop where
  whole : j.Whole
  sorted : j.Sorted

/-- The number of the step is one of 32 bits. -/
structure AuditStep.Writable (s : AuditStep) : Prop where
  number : s.number ≤ 4294967295
  input : s.input.Canonical
  output : s.output.Canonical

/-- The values of any form in the step leave room for `levels` lists and objects around them. -/
def AuditStep.FitsUnder (s : AuditStep) (levels : Nat) : Prop :=
  s.input.depth + levels ≤ Json.maxDepth ∧ s.output.depth + levels ≤ Json.maxDepth

instance (s : AuditStep) (levels : Nat) : Decidable (s.FitsUnder levels) :=
  inferInstanceAs (Decidable (_ ∧ _))

structure Calculation.Writable (c : Calculation) : Prop where
  dueDate : c.dueDate.InRange
  steps : ∀ s ∈ c.steps, s.Writable

/-! ## Leap seconds -/

namespace OpeningHour

def LeapsEndMinutes (h : OpeningHour) : Prop := h.opens.LeapEndsMinute ∧ h.closes.LeapEndsMinute

instance (h : OpeningHour) : Decidable h.LeapsEndMinutes := inferInstanceAs (Decidable (_ ∧ _))

/-- The hours that the written form stands for. -/
def asWritten (h : OpeningHour) : OpeningHour := ⟨h.opens.asWritten, h.closes.asWritten⟩

theorem asWritten_eq_iff {h : OpeningHour} : h.asWritten = h ↔ h.LeapsEndMinutes := by
  rw [LeapsEndMinutes, ← TimeOfDay.asWritten_eq_iff, ← TimeOfDay.asWritten_eq_iff]
  exact OpeningHour.mk.injEq .. |>.to_iff

end OpeningHour

namespace OpeningDay

def LeapsEndMinutes (d : OpeningDay) : Prop := ∀ h ∈ d.hours, h.LeapsEndMinutes

instance (d : OpeningDay) : Decidable d.LeapsEndMinutes := inferInstanceAs (Decidable (∀ h ∈ _, _))

def asWritten (d : OpeningDay) : OpeningDay := { d with hours := d.hours.map OpeningHour.asWritten }

theorem asWritten_eq_iff {d : OpeningDay} : d.asWritten = d ↔ d.LeapsEndMinutes := by
  have hhours : d.asWritten = d ↔ d.hours.map OpeningHour.asWritten = d.hours := by
    cases d
    simp [asWritten]
  rw [hhours, LeapsEndMinutes]
  simp only [← OpeningHour.asWritten_eq_iff]
  conv_lhs => rw [← List.map_id d.hours, List.map_map, List.map_inj_left]
  rfl

end OpeningDay

namespace AdjacentDays

def LeapsEndMinutes (a : AdjacentDays) : Prop :=
  a.previous.LeapsEndMinutes ∧ a.requested.LeapsEndMinutes ∧ a.next.LeapsEndMinutes

instance (a : AdjacentDays) : Decidable a.LeapsEndMinutes :=
  inferInstanceAs (Decidable (_ ∧ _ ∧ _))

def asWritten (a : AdjacentDays) : AdjacentDays :=
  ⟨a.previous.asWritten, a.requested.asWritten, a.next.asWritten⟩

theorem asWritten_eq_iff {a : AdjacentDays} : a.asWritten = a ↔ a.LeapsEndMinutes := by
  simp only [LeapsEndMinutes, ← OpeningDay.asWritten_eq_iff]
  cases a
  simp [asWritten]

end AdjacentDays

namespace Loan

def LeapsEndMinutes (l : Loan) : Prop := l.loanDate.LeapEndsMinute ∧ l.dueDate.LeapEndsMinute

instance (l : Loan) : Decidable l.LeapsEndMinutes := inferInstanceAs (Decidable (_ ∧ _))

def asWritten (l : Loan) : Loan :=
  { l with loanDate := l.loanDate.asWritten, dueDate := l.dueDate.asWritten }

theorem asWritten_eq_iff {l : Loan} : l.asWritten = l ↔ l.LeapsEndMinutes := by
  simp only [LeapsEndMinutes, ← Moment.asWritten_eq_iff]
  cases l
  simp [asWritten]

end Loan

namespace Calculation

def asWritten (c : Calculation) : Calculation := { c with dueDate := c.dueDate.asWritten }

theorem asWritten_eq_iff {c : Calculation} : c.asWritten = c ↔ c.dueDate.LeapEndsMinute := by
  rw [← Moment.asWritten_eq_iff]
  obtain ⟨⟨loanId, dueDate, steps⟩, id⟩ := c
  simp [asWritten]

end Calculation

namespace Wire

/-! ## Periods -/

/-- What a period is read as. -/
def positive (q : Period) : Decoded Period :=
  match Period.ofParts "period" (some q.duration) (some q.unit.name) with
  | .ok p => .ok p
  | .error e => .error (.period e)

theorem reads_period {q : Period} (h : q.Writable) : Reads period (periodJson q) (positive q) := by
  have hduration := reads_present (reads_int h) nofun
  have hunit := reads_present (reads_string q.unit.name) nofun
  refine reads_record (show ["duration", "intervalId"].Nodup by decide)
    ⟨hduration.whole, hunit.whole, trivial⟩ fun fs hfs => ?_
  have hparts : periodParts (.obj fs) = .ok (some q.duration, some q.unit.name) := by
    simp only [periodParts, fields, ok_bind, hduration.optional (hfs "duration"),
      hunit.optional (hfs "intervalId")]
    rfl
  rw [period, hparts]
  rfl

/-! ## Schedules -/

theorem reads_dueRange {r : DueRange} (h : r.Writable) :
    Reads dueRange (dueRangeJson r) (.ok r) := by
  have hstart := reads_date h.start
  have hstop := reads_date h.stop
  have hdue := reads_date h.due
  refine reads_record (show ["from", "to", "due"].Nodup by decide)
    ⟨hstart.whole, hstop.whole, hdue.whole, trivial⟩ fun fs hfs => ?_
  simp only [dueRange, fields, ok_bind, hstart.required (hfs "from"), hstop.required (hfs "to"),
    hdue.required (hfs "due")]
  rfl

theorem reads_schedule {s : Schedule} (h : s.Writable) :
    Reads schedule (scheduleJson s) (.ok s) := by
  have hid := reads_string s.id
  have hranges := reads_list fun r hr => reads_dueRange (h r hr)
  refine reads_record (show ["id", "schedules"].Nodup by decide)
    ⟨hid.whole, hranges.whole, trivial⟩ fun fs hfs => ?_
  simp only [schedule, fields, ok_bind, hid.required (hfs "id"),
    hranges.required (hfs "schedules")]
  rfl

/-! ## Policies -/

theorem reads_loanPolicy {p : LoanPolicy} (h : p.Writable) :
    Reads loanPolicy (loanPolicyJson p) (do
      let period ← maybe positive p.period
      let openingOffset ← maybe positive p.openingOffset
      return { p with period := period, openingOffset := openingOffset }) := by
  have hid := reads_string p.id
  have hname := reads_string p.name
  have hprofile := reads_tag (Profile.ofName?_name p.profile)
  have hperiod := reads_optionJson (fun q hq => reads_period
    (h.periods q (List.mem_append_left _ (Option.mem_toList.mpr hq)))) fun _ => nofun
  have hmanagement := reads_tag (Management.ofName?_name p.management)
  have hschedule := reads_optionJson (fun s hs => reads_schedule (h.schedule s hs)) fun _ => nofun
  have hlimit := reads_optionJson (fun s hs => reads_schedule (h.limit s hs)) fun _ => nofun
  have hoffset := reads_optionJson (fun q hq => reads_period
    (h.periods q (List.mem_append_right _ (Option.mem_toList.mpr hq)))) fun _ => nofun
  rw [maybe_ok] at hschedule hlimit
  refine reads_record (show ["id", "name", "profile", "period", "due_date_management",
      "fixed_due_date_schedules", "due_date_limit_schedules", "opening_time_offset"].Nodup
      by decide)
    ⟨hid.whole, hname.whole, hprofile.whole, hperiod.whole, hmanagement.whole, hschedule.whole,
      hlimit.whole, hoffset.whole, trivial⟩ fun fs hfs => ?_
  simp only [loanPolicy, profile, management, fields, ok_bind, hid.required (hfs "id"),
    hname.required (hfs "name"), hprofile.required (hfs "profile"),
    hperiod.optional (hfs "period"), hmanagement.required (hfs "due_date_management"),
    hschedule.optional (hfs "fixed_due_date_schedules"),
    hlimit.optional (hfs "due_date_limit_schedules"),
    hoffset.optional (hfs "opening_time_offset")]

theorem reads_finePolicy {p : FinePolicy} (h : p.Writable) :
    Reads finePolicy (finePolicyJson p) (do
      let gracePeriod ← maybe positive p.gracePeriod
      return { p with gracePeriod := gracePeriod }) := by
  have hid := reads_string p.id
  have hclosed := reads_optionJson (fun b (_ : b ∈ p.countClosed) => reads_bool b) fun _ => nofun
  have hrecalls := reads_optionJson (fun b (_ : b ∈ p.ignoreGraceForRecalls) => reads_bool b)
    fun _ => nofun
  have hgrace := reads_optionJson (fun q hq => reads_period (h q (Option.mem_toList.mpr hq)))
    fun _ => nofun
  rw [maybe_ok] at hclosed hrecalls
  refine reads_record (show ["id", "count_closed_periods", "ignore_grace_period_for_recalls",
      "grace_period"].Nodup by decide)
    ⟨hid.whole, hclosed.whole, hrecalls.whole, hgrace.whole, trivial⟩ fun fs hfs => ?_
  simp only [finePolicy, fields, ok_bind, hid.required (hfs "id"),
    hclosed.optional (hfs "count_closed_periods"),
    hrecalls.optional (hfs "ignore_grace_period_for_recalls"),
    hgrace.optional (hfs "grace_period")]

/-! ## Opening days -/

theorem reads_openingHour (h : OpeningHour) :
    Reads openingHour (openingHourJson h) (.ok h.asWritten) := by
  have hopens := reads_timeOfDay h.opens
  have hcloses := reads_timeOfDay h.closes
  refine reads_record (show ["startTime", "endTime"].Nodup by decide)
    ⟨hopens.whole, hcloses.whole, trivial⟩ fun fs hfs => ?_
  simp only [openingHour, fields, ok_bind, hopens.required (hfs "startTime"),
    hcloses.required (hfs "endTime")]
  rfl

theorem reads_openingDay {zones : Zone.Table} {d : OpeningDay} (h : d.Writable zones) :
    Reads (openingDay zones) (openingDayJson d) (.ok d.asWritten) := by
  have hdate := reads_date h.date
  have hallDay := reads_bool d.allDay
  have hopens := reads_bool d.opens
  have hhours := reads_list_map fun hour (_ : hour ∈ d.hours) => reads_openingHour hour
  have hzone := reads_zone h.zone
  refine reads_record (show ["date", "allDay", "open", "openingHour", "zone"].Nodup by decide)
    ⟨hdate.whole, hallDay.whole, hopens.whole, hhours.whole, hzone.whole, trivial⟩
    fun fs hfs => ?_
  simp only [openingDay, fields, ok_bind, hdate.required (hfs "date"),
    hallDay.defaulted (hfs "allDay"), hopens.required (hfs "open"),
    hhours.defaulted (hfs "openingHour"), hzone.required (hfs "zone")]
  rfl

theorem reads_adjacentDays {zones : Zone.Table} {a : AdjacentDays} (h : a.Writable zones) :
    Reads (adjacentDays zones) (adjacentDaysJson a) (.ok a.asWritten) := by
  have hprevious := reads_openingDay h.previous
  have hrequested := reads_openingDay h.requested
  have hnext := reads_openingDay h.next
  refine reads_record (show ["previousDay", "openingDay", "nextDay"].Nodup by decide)
    ⟨hprevious.whole, hrequested.whole, hnext.whole, trivial⟩ fun fs hfs => ?_
  simp only [adjacentDays, fields, ok_bind, hprevious.required (hfs "previousDay"),
    hrequested.required (hfs "openingDay"), hnext.required (hfs "nextDay")]
  rfl

/-! ## Loans and their calculations -/

theorem reads_loan {l : Loan} (h : l.Writable) : Reads loan (loanJson l) (.ok l.asWritten) := by
  have hid := reads_string l.id
  have hloan := reads_instant h.loanDate
  have hdue := reads_instant h.dueDate
  have hcheckout := reads_identifier l.checkoutServicePoint
  have hprimary := reads_optionJson
    (fun sp (_ : sp ∈ l.primaryServicePoint) => reads_identifier sp) fun _ => nofun
  have hrecalled := reads_bool l.recalled
  rw [maybe_ok] at hprimary
  refine reads_record (show ["id", "loan_date", "due_date", "checkout_service_point_id",
      "item_primary_service_point_id", "due_date_changed_by_recall"].Nodup by decide)
    ⟨hid.whole, hloan.whole, hdue.whole, hcheckout.whole, hprimary.whole, hrecalled.whole,
      trivial⟩ fun fs hfs => ?_
  simp only [loan, fields, ok_bind, hid.required (hfs "id"), hloan.required (hfs "loan_date"),
    hdue.required (hfs "due_date"), hcheckout.required (hfs "checkout_service_point_id"),
    hprimary.optional (hfs "item_primary_service_point_id"),
    hrecalled.defaulted (hfs "due_date_changed_by_recall")]
  rfl

/-- A value of any form is read as it is. -/
theorem reads_canonical {j : Json} (h : j.Canonical) : Reads .ok j (.ok j) :=
  ⟨h.whole, congrArg _ (Json.ordered_of_sorted h.sorted)⟩

theorem reads_auditStep {s : AuditStep} (h : s.Writable) :
    Reads auditStep (auditStepJson s) (.ok s) := by
  have hnumber := reads_count h.number
  have hruleId := reads_string s.ruleId
  have hruleName := reads_string s.ruleName
  have hinput := reads_canonical h.input
  have houtput := reads_canonical h.output
  have hreasoning := reads_string s.reasoning
  refine reads_record (show ["step_number", "rule_id", "rule_name", "input", "output",
      "reasoning"].Nodup by decide)
    ⟨hnumber.whole, hruleId.whole, hruleName.whole, hinput.whole, houtput.whole,
      hreasoning.whole, trivial⟩ fun fs hfs => ?_
  simp only [auditStep, fields, ok_bind, hnumber.required (hfs "step_number"),
    hruleId.required (hfs "rule_id"), hruleName.required (hfs "rule_name"),
    hinput.required (hfs "input"), houtput.required (hfs "output"),
    hreasoning.required (hfs "reasoning")]
  rfl

theorem reads_calculation {c : Calculation} (h : c.Writable) :
    Reads calculation (calculationJson c) (.ok c.asWritten) := by
  have hid := reads_identifier c.id
  have hloanId := reads_string c.loanId
  have hdue := reads_instant h.dueDate
  have hsteps := reads_list fun s hs => reads_auditStep (h.steps s hs)
  refine reads_record (show ["calculation_id", "loan_id", "due_date", "audit_steps"].Nodup
      by decide)
    ⟨hid.whole, hloanId.whole, hdue.whole, hsteps.whole, trivial⟩ fun fs hfs => ?_
  simp only [calculation, fields, ok_bind, hid.required (hfs "calculation_id"),
    hloanId.required (hfs "loan_id"), hdue.required (hfs "due_date"),
    hsteps.required (hfs "audit_steps")]
  rfl

/-! ## Depths -/

theorem depth_scheduleJson_le (s : Schedule) : (scheduleJson s).depth ≤ 3 := by
  have hranges : (listJson dueRangeJson s.ranges).depth ≤ 2 :=
    depth_listJson_le_iff.mpr fun r _ => (Nat.le_refl _ : (dueRangeJson r).depth ≤ 1)
  rw [scheduleJson, Json.depth_obj_le_iff]
  simp only [List.forall_mem_cons, hranges]
  simp [Json.depth]

theorem depth_loanPolicyJson_le (p : LoanPolicy) : (loanPolicyJson p).depth ≤ 4 := by
  have hperiod : ∀ q, (periodJson q).depth ≤ 3 := fun q => Nat.le_add_left 1 2
  rw [loanPolicyJson, Json.depth_obj_le_iff]
  simp only [List.forall_mem_cons, depth_optionJson_le hperiod,
    depth_optionJson_le depth_scheduleJson_le]
  simp [Json.depth]

theorem depth_finePolicyJson_le (p : FinePolicy) : (finePolicyJson p).depth ≤ 2 := by
  have hbool : ∀ b, (Json.bool b).depth ≤ 1 := fun b => Nat.zero_le 1
  have hperiod : ∀ q, (periodJson q).depth ≤ 1 := fun q => Nat.le_refl 1
  rw [finePolicyJson, Json.depth_obj_le_iff]
  simp only [List.forall_mem_cons, depth_optionJson_le hbool, depth_optionJson_le hperiod]
  simp [Json.depth]

theorem depth_openingDayJson_le (d : OpeningDay) : (openingDayJson d).depth ≤ 3 := by
  have hhours : (listJson openingHourJson d.hours).depth ≤ 2 :=
    depth_listJson_le_iff.mpr fun h _ => (Nat.le_refl _ : (openingHourJson h).depth ≤ 1)
  rw [openingDayJson, Json.depth_obj_le_iff]
  simp only [List.forall_mem_cons, hhours]
  simp [Json.depth, dateJson, zoneJson]

theorem depth_adjacentDaysJson_le (a : AdjacentDays) : (adjacentDaysJson a).depth ≤ 4 := by
  rw [adjacentDaysJson, Json.depth_obj_le_iff]
  simp [depth_openingDayJson_le]

theorem depth_loanJson_le (l : Loan) : (loanJson l).depth ≤ 1 := by
  have hid : ∀ id, (identifierJson id).depth ≤ 0 := fun id => Nat.le_refl 0
  rw [loanJson, Json.depth_obj_le_iff]
  simp only [List.forall_mem_cons, depth_optionJson_le hid]
  simp [Json.depth, instantJson, identifierJson]

theorem depth_auditStepJson_le_iff {s : AuditStep} {n : Nat} :
    (auditStepJson s).depth ≤ n + 1 ↔ s.input.depth ≤ n ∧ s.output.depth ≤ n := by
  rw [auditStepJson, Json.depth_obj_le_iff]
  simp [Json.depth]

theorem fitsUnder_auditStepJson {s : AuditStep} :
    (auditStepJson s).depth ≤ Json.maxDepth ↔ s.FitsUnder 1 := by
  show _ ≤ 126 + 1 ↔ _
  rw [depth_auditStepJson_le_iff]
  exact and_congr Nat.add_le_add_iff_right.symm Nat.add_le_add_iff_right.symm

/-- In a calculation there are two more levels around a step. -/
theorem fitsUnder_calculationJson {c : Calculation} :
    (calculationJson c).depth ≤ Json.maxDepth ↔ ∀ s ∈ c.steps, s.FitsUnder 3 := by
  show _ ≤ 126 + 1 ↔ _
  rw [calculationJson, Json.depth_obj_le_iff]
  simp only [List.forall_mem_cons, depth_listJson_le_iff (n := 125),
    depth_auditStepJson_le_iff (n := 124)]
  refine ⟨fun h s hs => ?_, fun h => ⟨Nat.zero_le _, Nat.zero_le _, Nat.zero_le _, ?_, nofun⟩⟩
  · exact (h.2.2.2.1 s hs).imp (Nat.add_le_add_right · 3) (Nat.add_le_add_right · 3)
  · exact fun s hs => (h s hs).imp Nat.le_of_add_le_add_right Nat.le_of_add_le_add_right

end Wire

end Circulation
