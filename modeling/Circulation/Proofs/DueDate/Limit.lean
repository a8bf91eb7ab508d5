import Circulation.DueDate
import Circulation.Proofs.Calendar.Records
import Circulation.Proofs.Result
import Circulation.Proofs.Zone.Fixed
import Circulation.Zone.Named

/-!
# Due date limits

A rolling policy under a limit runs as the same policy without one and then checks the candidate.
The check is a schedule look-up, which leaves candidates within the limit alone and lets no other
one pass the end of the limit date. Fixed policies have no such check.
-/

namespace Circulation

namespace Schedule

variable {s : Schedule} {date : Date}

theorem dueDateFor_eq_error (h : ∀ r ∈ s.ranges, r.covers date = false) :
    s.dueDateFor date = .error (.loanDateOutsideSchedule s.id date) := by
  have hnone : s.ranges.find? (·.covers date) = none := by
    rw [List.find?_eq_none]
    intro r hr
    simp [h r hr]
  rw [dueDateFor, hnone]

/-- The range covers the date and none before it does. -/
def IsFirst (s : Schedule) (date : Date) (r : DueRange) : Prop :=
  r.covers date = true ∧ ∃ before after, s.ranges = before ++ r :: after ∧
    ∀ r' ∈ before, r'.covers date = false

theorem IsFirst.dueDateFor_eq {r : DueRange} (h : s.IsFirst date r) :
    s.dueDateFor date = .ok r.due := by
  obtain ⟨hr, before, after, hranges, hbefore⟩ := h
  have hfind : s.ranges.find? (·.covers date) = some r := by
    rw [List.find?_eq_some_iff_append]
    refine ⟨hr, before, after, hranges, fun r' hr' => ?_⟩
    simp [hbefore r' hr']
  exact dueDateFor_eq_ok_iff.mpr ⟨r, hfind, rfl⟩

end Schedule

namespace LoanPolicy

/-- A rolling policy that has a limit. -/
def HasLimit (p : LoanPolicy) : Prop := p.profile = .rolling ∧ p.limit.isSome

instance (p : LoanPolicy) : Decidable p.HasLimit := inferInstanceAs (Decidable (_ ∧ _))

theorem isFixed_eq_false_iff {p : LoanPolicy} : p.isFixed = false ↔ p.profile = .rolling := by
  unfold isFixed
  cases p.profile <;> decide

end LoanPolicy

namespace Service

variable {s : Service} {loan : Loan} {policy : LoanPolicy} {limit : Schedule} {limitDate : Date}
  {requested candidate now : Instant} {check : LimitCheck}

/-! ## The check -/

theorem checkLimit_eq_error {e : Error}
    (h : limit.dueDateFor (s.zone.localDate loan.loanDate) = .error e) :
    s.checkLimit loan policy limit candidate now = .error e := by
  unfold checkLimit
  rw [h]
  rfl

theorem checkLimit_within (h : limit.dueDateFor (s.zone.localDate loan.loanDate) = .ok limitDate)
    (hle : s.zone.localDate candidate ≤ limitDate) :
    s.checkLimit loan policy limit candidate now = .ok (.within limitDate) := by
  unfold checkLimit
  rw [h, Result.ok_bind, if_pos hle]
  rfl

/-- A candidate beyond the limit date is replaced by the end of that date, moved back. -/
theorem checkLimit_eq (h : limit.dueDateFor (s.zone.localDate loan.loanDate) = .ok limitDate)
    (hlt : limitDate < s.zone.localDate candidate) :
    s.checkLimit loan policy limit candidate now = (do
      let latest ← s.zone.endOfDay limitDate
      let strategy := Strategy.movingBackward policy now
      let moved ← s.run strategy loan.checkoutServicePoint latest
      return .exceeded limitDate strategy (min moved latest)) := by
  unfold checkLimit
  rw [h, Result.ok_bind, if_neg hlt.not_ge]

/-- A candidate beyond the limit date is pulled back to the end of that date or before. -/
theorem checkLimit_exceeded (h : limit.dueDateFor (s.zone.localDate loan.loanDate) = .ok limitDate)
    (hlt : limitDate < s.zone.localDate candidate)
    (hcheck : s.checkLimit loan policy limit candidate now = .ok check) :
    ∃ latest moved, s.zone.endOfDay limitDate = .ok latest ∧
      s.run (Strategy.movingBackward policy now) loan.checkoutServicePoint latest = .ok moved ∧
      check = .exceeded limitDate (Strategy.movingBackward policy now) (min moved latest) := by
  rw [checkLimit_eq h hlt] at hcheck
  simp only [Result.bind_eq_ok_iff, Result.pure_eq_ok_iff] at hcheck
  obtain ⟨latest, hlatest, moved, hmoved, rfl⟩ := hcheck
  exact ⟨latest, moved, hlatest, hmoved, rfl⟩

/-! ## Runs with and without a limit -/

variable {trail : AuditTrail}

/-- Under a limit the policy runs as it does without one, and then the candidate is checked. -/
theorem manage_withLimit (h : policy.isFixed = false) :
    s.manage loan (policy.withLimit limit) requested now trail = (do
      let (candidate, trail) ← s.manage loan { policy with limit := none } requested now trail
      let check ← s.checkLimit loan policy limit candidate now
      return (check.dueDate candidate, trail.recordLimit candidate check)) := by
  have hfixed : (policy.withLimit limit).isFixed = false := h
  have hfixed' : ({ policy with limit := none } : LoanPolicy).isFixed = false := h
  unfold manage
  rw [hfixed, hfixed']
  show (s.run (Strategy.ofPolicy policy now s.zone) _ requested >>= _) =
    (s.run (Strategy.ofPolicy policy now s.zone) _ requested >>= _) >>= _
  cases s.run (Strategy.ofPolicy policy now s.zone) loan.checkoutServicePoint requested with
  | error e => rfl
  | ok candidate => rfl

/-- A requested date is moved by the strategy of the policy and checked if the policy has a limit,
and both are recorded. -/
theorem exists_of_manage {r : Instant × AuditTrail}
    (h : s.manage loan policy requested now trail = .ok r) :
    ∃ strategy candidate, strategy = Strategy.ofPolicy policy now s.zone ∧
      s.run strategy loan.checkoutServicePoint requested = .ok candidate ∧
      ((¬ policy.HasLimit ∧
          r = (candidate, trail.recordStrategy policy strategy requested candidate)) ∨
        ∃ limit check, policy.HasLimit ∧ policy.limit = some limit ∧
          s.checkLimit loan policy limit candidate now = .ok check ∧
          r = (check.dueDate candidate,
            (trail.recordStrategy policy strategy requested candidate).recordLimit
              candidate check)) := by
  unfold manage at h
  simp only [Result.bind_eq_ok_iff] at h
  obtain ⟨candidate, hrun, h⟩ := h
  refine ⟨_, candidate, rfl, hrun, ?_⟩
  split at h
  · rename_i limit hrolling hlimit
    obtain ⟨check, hcheck, h⟩ := Result.bind_eq_ok_iff.mp h
    obtain rfl := Result.pure_eq_ok_iff.mp h
    have hhas : policy.HasLimit :=
      ⟨LoanPolicy.isFixed_eq_false_iff.mp hrolling, Option.isSome_of_eq_some hlimit⟩
    exact .inr ⟨limit, check, hhas, hlimit, hcheck, rfl⟩
  · rename_i hother
    obtain rfl := Result.pure_eq_ok_iff.mp h
    refine .inl ⟨?_, rfl⟩
    rintro ⟨hrolling, hsome⟩
    obtain ⟨limit, hlimit⟩ := Option.isSome_iff_exists.mp hsome
    exact hother limit (LoanPolicy.isFixed_eq_false_iff.mpr hrolling) hlimit

/-- What becomes of a requested date does not depend on the steps recorded before. -/
theorem map_manage (trail : AuditTrail) :
    (s.manage loan policy requested now trail).map (·.1) =
      s.managedDueDate loan policy requested now := by
  unfold managedDueDate manage
  cases hrun : s.run (Strategy.ofPolicy policy now s.zone) loan.checkoutServicePoint requested with
  | error e =>
    simp only [hrun]
    rfl
  | ok candidate =>
    simp only [hrun, Result.ok_bind]
    match policy.isFixed, policy.limit with
    | true, _ => rfl
    | false, none => rfl
    | false, some limit =>
      dsimp only
      cases s.checkLimit loan policy limit candidate now with
      | error e => rfl
      | ok check => rfl

/-- The due date that is calculated is where the initial one is moved. -/
theorem map_dueDate_calculate : (s.calculate loan policy now).map (·.dueDate) = (do
      let initial ← s.initialDueDate loan policy
      s.managedDueDate loan policy initial now) := by
  unfold calculate
  cases s.initialDueDate loan policy with
  | error e => rfl
  | ok initial =>
    simp only [Result.ok_bind]
    rw [← map_manage (.recordInitial .empty loan policy initial)]
    cases s.manage loan policy initial now (.recordInitial .empty loan policy initial) <;> rfl

theorem manage_eq_error_iff {e : Error} : s.manage loan policy requested now trail = .error e ↔
    s.managedDueDate loan policy requested now = .error e := by
  rw [← map_manage trail, Result.map_eq_error_iff]

theorem manage_of_fixed (h : policy.isFixed = true) (limit : Option Schedule) :
    s.manage loan { policy with limit := limit } requested now trail =
      s.manage loan policy requested now trail := by
  have hfixed : ({ policy with limit := limit } : LoanPolicy).isFixed = true := h
  unfold manage
  rw [h, hfixed]
  rfl

theorem calculate_of_fixed (h : policy.isFixed = true) (limit : Option Schedule) :
    s.calculate loan { policy with limit := limit } now = s.calculate loan policy now := by
  unfold calculate
  have hinitial : s.initialDueDate loan { policy with limit := limit } =
      s.initialDueDate loan policy := rfl
  rw [hinitial]
  cases s.initialDueDate loan policy with
  | error e => rfl
  | ok initial =>
    show (s.manage loan { policy with limit := limit } initial now _ >>= _) =
      (s.manage loan policy initial now _ >>= _)
    rw [manage_of_fixed h]
    rfl

/-- The first step of a calculation does not depend on the limit. -/
theorem recordInitial_withLimit (limit : Schedule) (initial : Instant) :
    trail.recordInitial loan (policy.withLimit limit) initial =
      trail.recordInitial loan { policy with limit := none } initial :=
  rfl

variable {c : Outcome}

theorem calculate_withLimit_eq_error (h : policy.isFixed = false) {e : Error}
    (he : s.calculate loan { policy with limit := none } now = .error e) :
    s.calculate loan (policy.withLimit limit) now = .error e := by
  unfold calculate at he ⊢
  simp only [Result.bind_eq_error_iff] at he ⊢
  rcases he with he | ⟨initial, hinitial, he | ⟨m, hm, he⟩⟩
  · exact .inl he
  · refine .inr ⟨initial, hinitial, .inl ?_⟩
    rw [manage_withLimit h, recordInitial_withLimit, he]
    rfl
  · cases he

/-- The due date without a limit is the candidate that is checked under it, and the check is
recorded after the other steps. -/
theorem calculate_withLimit_eq (h : policy.isFixed = false) (limit : Schedule)
    (hc : s.calculate loan { policy with limit := none } now = .ok c) :
    s.calculate loan (policy.withLimit limit) now = (do
      let check ← s.checkLimit loan policy limit c.dueDate now
      return { c with
        dueDate := check.dueDate c.dueDate
        steps := (AuditTrail.recordLimit ⟨c.steps⟩ c.dueDate check).steps }) := by
  unfold calculate at hc
  simp only [Result.bind_eq_ok_iff, Result.pure_eq_ok_iff] at hc
  obtain ⟨initial, hinitial, ⟨candidate, trail⟩, hm, rfl⟩ := hc
  have hinitial' : s.initialDueDate loan (policy.withLimit limit) = .ok initial := hinitial
  unfold calculate
  simp only [hinitial', Result.ok_bind, manage_withLimit h, recordInitial_withLimit, hm]
  cases s.checkLimit loan policy limit candidate now with
  | error e => rfl
  | ok check => rfl

/-- How a calculation under a limit compares with the one without it. -/
structure KeepsLimit (s : Service) (loan : Loan) (limit : Schedule)
    (free limited : Result Outcome) : Prop where
  error : ∀ e, free = .error e → limited = .error e
  outside : ∀ c, free = .ok c →
    (∀ r ∈ limit.ranges, r.covers (s.zone.localDate loan.loanDate) = false) →
    limited = .error (.loanDateOutsideSchedule limit.id (s.zone.localDate loan.loanDate))
  within : ∀ c, free = .ok c → ∀ r, limit.IsFirst (s.zone.localDate loan.loanDate) r →
    s.zone.localDate c.dueDate ≤ r.due →
    limited = .ok { c with
      steps := (AuditTrail.recordLimit ⟨c.steps⟩ c.dueDate (.within r.due)).steps }
  exceeded : ∀ c, free = .ok c → ∀ r, limit.IsFirst (s.zone.localDate loan.loanDate) r →
    r.due < s.zone.localDate c.dueDate → ∀ o, limited = .ok o →
    ∃ latest, s.zone.endOfDay r.due = .ok latest ∧ o.dueDate ≤ latest ∧
      ∀ offset, s.zone.IsFixed offset → r.due.InRange →
        o.dueDate < c.dueDate ∧ s.zone.localDate o.dueDate ≤ r.due

/-- In a zone of one offset whatever is due by the end of a date is due on that date or before, and
so earlier than what is due after the date. -/
theorem lt_of_le_endOfDay {offset : Int} {z : Zone} {d : Date} {a b latest : Instant}
    (hz : z.IsFixed offset) (hd : d.InRange) (hlatest : z.endOfDay d = .ok latest)
    (ha : a ≤ latest) (hb : d < z.localDate b) : a < b ∧ z.localDate a ≤ d := by
  have hlocal : z.localDate latest = d := by
    rw [Zone.localDate, hz.toLocal_endOfDay hd hlatest, Date.date_at]
  have hle : z.localDate a ≤ d := hlocal ▸ hz.localDate_mono ha
  have hlt : z.toLocal a < z.toLocal b := Moment.lt_of_date_lt (hle.trans_lt hb)
  exact ⟨hz.toLocal_lt_iff.mp hlt, hle⟩

theorem keepsLimit_of_rolling (h : policy.isFixed = false) :
    KeepsLimit s loan limit (s.calculate loan { policy with limit := none } now)
      (s.calculate loan (policy.withLimit limit) now) := by
  constructor
  case error =>
    intro e he
    exact calculate_withLimit_eq_error h he
  case outside =>
    intro c hc hnone
    rw [calculate_withLimit_eq h limit hc, checkLimit_eq_error (Schedule.dueDateFor_eq_error hnone)]
    rfl
  case within =>
    intro c hc r hr hle
    rw [calculate_withLimit_eq h limit hc, checkLimit_within hr.dueDateFor_eq hle]
    rfl
  case exceeded =>
    intro c hc r hr hlt o ho
    rw [calculate_withLimit_eq h limit hc] at ho
    obtain ⟨check, hcheck, ho⟩ := Result.bind_eq_ok_iff.mp ho
    obtain rfl := Result.pure_eq_ok_iff.mp ho
    obtain ⟨latest, moved, hlatest, -, rfl⟩ := checkLimit_exceeded hr.dueDateFor_eq hlt hcheck
    have hle : min moved latest ≤ latest := min_le_right _ _
    refine ⟨latest, hlatest, hle, fun offset hz hd => ?_⟩
    exact lt_of_le_endOfDay hz hd hlatest hle hlt

/-- A limit changes a rolling calculation that succeeds only by its schedule and by pulling back due
dates beyond it, and a fixed one not at all. Local dates past the ends of the calendar are compared
as if it went on (`Zone.toLocal`). -/
theorem calculate_keepsLimit (s : Service) (loan : Loan) (policy : LoanPolicy) (limit : Schedule)
    (now : Instant) :
    (policy.profile = .rolling →
      KeepsLimit s loan limit (s.calculate loan { policy with limit := none } now)
        (s.calculate loan (policy.withLimit limit) now)) ∧
    (policy.profile = .fixed → ∀ l,
      s.calculate loan { policy with limit := l } now = s.calculate loan policy now) := by
  refine ⟨fun hrolling => ?_, fun hfixed l => ?_⟩
  · have h : policy.isFixed = false := by simp [LoanPolicy.isFixed, hrolling]
    exact keepsLimit_of_rolling h
  · have h : policy.isFixed = true := by simp [LoanPolicy.isFixed, hfixed]
    exact calculate_of_fixed h l

/-- A loan of three weeks that may not last beyond 10 March 2026, where the service point is last
open on 9 March. -/
def marchLoan : Loan :=
  .ofCheckout "loan" (.ofSecond 1772445600) (.ofSecond 1772445600) .zero

def marchLimit : Schedule := ⟨"march", [⟨⟨20485⟩, ⟨20543⟩, ⟨20522⟩⟩]⟩

def marchService : Service :=
  let clock hour := (TimeOfDay.ofClock? hour 0 0 0).getD .midnight
  ⟨.ofRecords [(.zero, .withHours ⟨20521⟩ Zone.kathmandu [⟨clock 10, clock 17⟩])],
    Zone.kathmandu⟩

def threeWeeks : LoanPolicy := .rolling "weeks" ⟨3, .weeks⟩ .keepCurrentDate

theorem calculate_keepsLimit_march :
    threeWeeks.profile = .rolling ∧ marchService.zone.IsFixed 20700 ∧
    (∃ c o, marchService.calculate marchLoan { threeWeeks with limit := none }
        marchLoan.loanDate = .ok c ∧
      marchService.calculate marchLoan (threeWeeks.withLimit marchLimit)
        marchLoan.loanDate = .ok o ∧
      c.dueDate = .ofSecond 1774289699 ∧ o.dueDate = .ofSecond 1773054900 ∧
      o.dueDate < c.dueDate ∧ marchService.zone.localDate o.dueDate ≤ ⟨20522⟩) ∧
    (LoanPolicy.fixed "fixed" marchLimit .keepCurrentDate).profile = .fixed ∧
    marchService.calculate marchLoan
        { LoanPolicy.fixed "fixed" marchLimit .keepCurrentDate with limit := some marchLimit }
        marchLoan.loanDate =
      marchService.calculate marchLoan (.fixed "fixed" marchLimit .keepCurrentDate)
        marchLoan.loanDate := by
  have hzone : marchService.zone.IsFixed 20700 :=
    Zone.constant_isFixed "Asia/Kathmandu" (by decide) (by decide)
  have hfree : (marchService.calculate marchLoan { threeWeeks with limit := none }
      marchLoan.loanDate).map (·.dueDate) = .ok (.ofSecond 1774289699) := by decide +kernel
  have hlimited : (marchService.calculate marchLoan (threeWeeks.withLimit marchLimit)
      marchLoan.loanDate).map (·.dueDate) = .ok (.ofSecond 1773054900) := by decide +kernel
  have hfirst : marchLimit.IsFirst (marchService.zone.localDate marchLoan.loanDate)
      ⟨⟨20485⟩, ⟨20543⟩, ⟨20522⟩⟩ := ⟨by decide, [], [], rfl, by simp⟩
  have hlate : (⟨20522⟩ : Date) < marchService.zone.localDate (.ofSecond 1774289699) := by decide
  obtain ⟨c, hc, hcdue⟩ := Result.map_eq_ok_iff.mp hfree
  obtain ⟨o, ho, hodue⟩ := Result.map_eq_ok_iff.mp hlimited
  obtain ⟨hrolling, -⟩ := calculate_keepsLimit marchService marchLoan threeWeeks marchLimit
    marchLoan.loanDate
  obtain ⟨-, hfixed⟩ := calculate_keepsLimit marchService marchLoan
    (.fixed "fixed" marchLimit .keepCurrentDate) marchLimit marchLoan.loanDate
  obtain ⟨latest, -, -, hkeeps⟩ :=
    (hrolling rfl).exceeded c hc _ hfirst (hcdue ▸ hlate) o ho
  exact ⟨rfl, hzone, ⟨c, o, hc, ho, hcdue, hodue, hkeeps 20700 hzone (by decide)⟩, rfl,
    hfixed rfl _⟩

end Service

end Circulation
