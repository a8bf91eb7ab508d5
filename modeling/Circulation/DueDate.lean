import Circulation.Audit
import Circulation.Calendar
import Circulation.Strategy
import Circulation.Wire.Basic

/-!
# Due dates

A service finds the due date of a loan in three steps: the initial due date that the policy asks
for, the candidate to which the policy's strategy moves it out of closed time, and for rolling
policies the limit under which the candidate is pulled back. Each step is recorded in an audit
trail once it has succeeded. Strategies see the days of the calendar around the requested date and,
if they look at the present, around that as well.
-/

namespace Circulation

/-- A calendar with the zone in which local dates are meant. -/
structure Service where
  calendar : Calendar
  zone : Zone

/-- How a candidate compares with the limit of its policy. -/
inductive LimitCheck where
  | within (limitDate : Date)
  /-- The candidate was too late, and the strategy moved it to the due date. -/
  | exceeded (limitDate : Date) (strategy : Strategy) (dueDate : Instant)
  deriving DecidableEq, Repr

/-- What becomes of the candidate. -/
def LimitCheck.dueDate (check : LimitCheck) (candidate : Instant) : Instant :=
  match check with
  | within _ => candidate
  | exceeded _ _ dueDate => dueDate

/-! ## Steps of the audit trail -/

namespace AuditTrail

open Wire

def dueDateJson (t : Instant) : Json := .obj [("due_date", instantJson t)]

def recordInitial (trail : AuditTrail) (loan : Loan) (policy : LoanPolicy) (initial : Instant) :
    AuditTrail :=
  let reasoning :=
    match policy.profile, policy.period with
    | .rolling, some period => "Loan date plus " ++ period.display
    | _, _ => "Due date from the fixed due date schedule"
  trail.record "initial_due_date" "Initial Due Date"
    (.obj [("loan_date", instantJson loan.loanDate), ("profile", .str policy.profile.name)])
    (dueDateJson initial) reasoning

def recordStrategy (trail : AuditTrail) (policy : LoanPolicy) (strategy : Strategy)
    (requested candidate : Instant) : AuditTrail :=
  trail.record "closed_library_strategy" "Closed Library Strategy"
    (.obj [("due_date_management", .str policy.management.name),
      ("requested", instantJson requested), ("strategy", .str strategy.name)])
    (dueDateJson candidate) ("Applied " ++ strategy.name ++ " for " ++ policy.management.name)

def recordLimit (trail : AuditTrail) (candidate : Instant) (check : LimitCheck) : AuditTrail :=
  match check with
  | .within limitDate =>
    trail.record "due_date_limit" "Due Date Limit"
      (.obj [("candidate", instantJson candidate), ("limit_date", dateJson limitDate)])
      (dueDateJson candidate) ("Within limit " ++ limitDate.toText)
  | .exceeded limitDate strategy dueDate =>
    trail.record "due_date_limit" "Due Date Limit"
      (.obj [("candidate", instantJson candidate), ("limit_date", dateJson limitDate),
        ("strategy", .str strategy.name)])
      (dueDateJson dueDate)
      ("Exceeded limit " ++ limitDate.toText ++ ", moved back with " ++ strategy.name)

end AuditTrail

namespace Service

/-! ## The initial due date -/

/-- The due date the policy asks for before closed time is considered. -/
def initialDueDate (s : Service) (loan : Loan) (policy : LoanPolicy) : Result Instant :=
  if policy.isFixed then do
    let schedule ← policy.fixedSchedule
    let due ← schedule.dueDateFor (s.zone.localDate loan.loanDate)
    s.zone.endOfDay due
  else do
    let period ← policy.loanPeriod
    let due ← period.plusDate s.zone loan.loanDate
    if period.isShortTerm then return due else s.zone.endOfDay (s.zone.localDate due)

/-! ## Closed time -/

/-- The dates whose surroundings a strategy needs. -/
def datesOfInterest (s : Service) (strategy : Strategy) (requested : Instant) : List Date :=
  let date := s.zone.localDate requested
  match strategy with
  | .endOfCurrentHours now =>
    let today := s.zone.localDate now
    if today = date then [date] else [date, today]
  | _ => [date]

/-- Puts a day into its place in a list of days. It replaces the day of the same date unless that
one is open. -/
def keepDay (days : List OpeningDay) (day : OpeningDay) : List OpeningDay :=
  match days with
  | [] => [day]
  | d :: rest =>
    if day.date < d.date then day :: d :: rest
    else if day.date = d.date then (if d.isOpen then d else day) :: rest
    else d :: keepDay rest day

/-- The days around some dates, in order and each once. -/
def daysAround (s : Service) (servicePoint : ServicePoint) (dates : List Date) :
    Result (List OpeningDay) := do
  let adjacent ← dates.mapM (s.calendar.adjacentDays servicePoint)
  return (adjacent.flatMap (·.days)).foldl keepDay []

/-- The timetable around a requested date. -/
def timetable (s : Service) (strategy : Strategy) (servicePoint : ServicePoint)
    (requested : Instant) : Result Timetable := do
  let days ← s.daysAround servicePoint (s.datesOfInterest strategy requested)
  Timetable.ofDays days s.zone

/-- Moves a requested date with a strategy. -/
def run (s : Service) (strategy : Strategy) (servicePoint : ServicePoint) (requested : Instant) :
    Result Instant := do
  if strategy.requiresCalendar then
    let t ← s.timetable strategy servicePoint requested
    strategy.dueDate t requested
  else strategy.dueDate (.empty s.zone) requested

/-! ## The limit -/

/-- Pulls a candidate back under the limit for the loan. -/
def checkLimit (s : Service) (loan : Loan) (policy : LoanPolicy) (limit : Schedule)
    (candidate now : Instant) : Result LimitCheck := do
  let limitDate ← limit.dueDateFor (s.zone.localDate loan.loanDate)
  if s.zone.localDate candidate ≤ limitDate then return .within limitDate
  let latest ← s.zone.endOfDay limitDate
  let strategy := Strategy.movingBackward policy now
  let moved ← s.run strategy loan.checkoutServicePoint latest
  return .exceeded limitDate strategy (min moved latest)

/-! ## Calculations -/

/-- Moves a requested due date out of closed time and under the policy's limit. -/
def manage (s : Service) (loan : Loan) (policy : LoanPolicy) (requested now : Instant)
    (trail : AuditTrail) : Result (Instant × AuditTrail) := do
  let strategy := Strategy.ofPolicy policy now s.zone
  let candidate ← s.run strategy loan.checkoutServicePoint requested
  let trail := trail.recordStrategy policy strategy requested candidate
  match policy.isFixed, policy.limit with
  | false, some limit =>
    let check ← s.checkLimit loan policy limit candidate now
    return (check.dueDate candidate, trail.recordLimit candidate check)
  | _, _ => return (candidate, trail)

/-- The managed due date alone, whose trail nobody sees. -/
def managedDueDate (s : Service) (loan : Loan) (policy : LoanPolicy) (requested now : Instant) :
    Result Instant :=
  (s.manage loan policy requested now .empty).map (·.1)

/-- The due date of a loan that is checked out or renewed at `now`. -/
def calculate (s : Service) (loan : Loan) (policy : LoanPolicy) (now : Instant) :
    Result Outcome := do
  let initial ← s.initialDueDate loan policy
  let trail := AuditTrail.empty.recordInitial loan policy initial
  let (dueDate, trail) ← s.manage loan policy initial now trail
  return ⟨loan.id, dueDate, trail.steps⟩

end Service

end Circulation
