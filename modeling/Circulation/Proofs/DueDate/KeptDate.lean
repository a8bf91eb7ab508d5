import Circulation.Proofs.DueDate.Limit
import Circulation.Proofs.Zone.EndOfDay

/-!
# Due dates without a calendar

A strategy that keeps the requested date does not look at opening hours. The due dates of fixed
policies, whose strategies all keep the date, come from the schedule alone. Those of rolling
policies that keep the date depend on the calendar only where a limit pulls them back.
-/

namespace Circulation

namespace Schedule

theorem outside_or_exists_isFirst (s : Schedule) (date : Date) :
    (∀ r ∈ s.ranges, r.covers date = false) ∨ ∃ r, s.IsFirst date r := by
  cases hfind : s.ranges.find? (·.covers date) with
  | none => exact .inl fun r hr => by simpa using List.find?_eq_none.mp hfind r hr
  | some r =>
    obtain ⟨hr, before, after, hranges, hbefore⟩ := List.find?_eq_some_iff_append.mp hfind
    exact .inr ⟨r, hr, before, after, hranges, fun r' hr' => by simpa using hbefore r' hr'⟩

end Schedule

namespace Strategy

variable {policy : LoanPolicy} {now now' : Instant} {z : Zone}

theorem ofPolicy_of_fixed (h : policy.profile = .fixed) :
    ofPolicy policy now z = .keepCurrentDateTime ∨ ofPolicy policy now z = .keepCurrentDate z := by
  unfold ofPolicy
  rw [h]
  cases policy.management <;> simp

theorem requiresCalendar_of_keepsDate (h : policy.profile = .fixed ∨
    policy.management = .keepCurrentDate ∨ policy.management = .keepCurrentDateTime) :
    (ofPolicy policy now z).requiresCalendar = false := by
  rcases h with h | h | h
  · rcases ofPolicy_of_fixed h with heq | heq
    · rw [heq]
      rfl
    · rw [heq]
      rfl
  · unfold ofPolicy
    cases policy.profile <;> rw [h] <;> rfl
  · unfold ofPolicy
    cases policy.profile <;> rw [h] <;> rfl

end Strategy

namespace Service

variable {s : Service} {c c' : Calendar} {z : Zone} {loan : Loan} {policy : LoanPolicy}
  {now : Instant}

/-- Without a limit and with a strategy that needs no calendar, the strategy moves the initial due
date and that is all. -/
theorem calculate_of_noCalendar (hlimit : policy.limit = none)
    (h : (Strategy.ofPolicy policy now s.zone).requiresCalendar = false) :
    s.calculate loan policy now = (do
      let initial ← s.initialDueDate loan policy
      let due ← (Strategy.ofPolicy policy now s.zone).dueDate (.empty s.zone) initial
      let trail := AuditTrail.empty.recordInitial loan policy initial
      return ⟨loan.id, due, (trail.recordStrategy policy (Strategy.ofPolicy policy now s.zone)
        initial due).steps⟩) := by
  have hrun : ∀ initial, s.run (Strategy.ofPolicy policy now s.zone) loan.checkoutServicePoint
      initial = (Strategy.ofPolicy policy now s.zone).dueDate (.empty s.zone) initial := by
    intro initial
    rw [run, h]
    rfl
  unfold calculate
  cases s.initialDueDate loan policy with
  | error e => rfl
  | ok initial =>
    unfold manage
    rw [hlimit]
    simp only [Result.ok_bind, hrun]
    cases (Strategy.ofPolicy policy now s.zone).dueDate (.empty s.zone) initial with
    | error e => rfl
    | ok due => cases policy.isFixed <;> rfl

/-! ## Fixed policies -/

theorem calculate_eq_of_fixed (h : policy.profile = .fixed) (s : Service) (loan : Loan)
    (now : Instant) :
    s.calculate loan policy now = (do
      let initial ← s.initialDueDate loan policy
      let due ← (Strategy.ofPolicy policy now s.zone).dueDate (.empty s.zone) initial
      let trail := AuditTrail.empty.recordInitial loan policy initial
      return ⟨loan.id, due, (trail.recordStrategy policy (Strategy.ofPolicy policy now s.zone)
        initial due).steps⟩) := by
  have hfixed : policy.isFixed = true := by simp [LoanPolicy.isFixed, h]
  rw [← calculate_of_fixed hfixed none]
  exact calculate_of_noCalendar rfl (Strategy.requiresCalendar_of_keepsDate (.inl h))

theorem initialDueDate_of_fixed (h : policy.profile = .fixed) (s : Service) (loan : Loan) :
    s.initialDueDate loan policy = (do
      let schedule ← policy.fixedSchedule
      let due ← schedule.dueDateFor (s.zone.localDate loan.loanDate)
      s.zone.endOfDay due) := by
  have hfixed : policy.isFixed = true := by simp [LoanPolicy.isFixed, h]
  rw [initialDueDate, if_pos hfixed]

theorem initialDueDate_of_isFirst (h : policy.profile = .fixed) {schedule : Schedule}
    (hschedule : policy.schedule = some schedule) {r : DueRange}
    (hr : schedule.IsFirst (s.zone.localDate loan.loanDate) r) :
    s.initialDueDate loan policy = s.zone.endOfDay r.due := by
  rw [initialDueDate_of_fixed h, LoanPolicy.fixedSchedule, hschedule, Result.ok_bind,
    hr.dueDateFor_eq, Result.ok_bind]

/-- The strategy of a fixed policy leaves the end of a date alone where the clock shows its last
second. -/
theorem dueDate_of_endsDay (h : policy.profile = .fixed) {d : Date} {due : Instant}
    (hdue : z.EndsDay d due) (hshown : (z.shownAt (d.at .lastSecond)).Nonempty) (t : Timetable) :
    (Strategy.ofPolicy policy now z).dueDate t due = .ok due := by
  rcases Strategy.ofPolicy_of_fixed h with heq | heq
  · rw [heq]
    rfl
  · rw [heq]
    show z.endOfDay (z.localDate due) = .ok due
    rw [hdue.localDate_eq_iff.mpr hshown]
    exact Zone.endOfDay_eq_ok_iff.mpr hdue

/-- What a fixed policy makes of a loan, with every calendar and at any time. -/
structure FollowsSchedule (z : Zone) (loan : Loan) (policy : LoanPolicy) : Prop where
  same : ∀ c c' now now' limit offset, calculate ⟨c, z⟩ loan policy now =
    calculate ⟨c', z⟩ loan { policy with limit := limit, openingOffset := offset } now'
  noSchedule : policy.schedule = none → ∀ c now, calculate ⟨c, z⟩ loan policy now =
    .error (.policyMisconfigured policy.id "fixed profile requires a fixed due date schedule")
  outside : ∀ schedule, policy.schedule = some schedule →
    (∀ r ∈ schedule.ranges, r.covers (z.localDate loan.loanDate) = false) →
    ∀ c now, calculate ⟨c, z⟩ loan policy now =
      .error (.loanDateOutsideSchedule schedule.id (z.localDate loan.loanDate))
  due : ∀ schedule, policy.schedule = some schedule →
    ∀ r, schedule.IsFirst (z.localDate loan.loanDate) r →
    (z.shownAt (r.due.at .lastSecond)).Nonempty →
    ∃ due, z.endOfDay r.due = .ok due ∧ ∀ c now management,
      (calculate ⟨c, z⟩ loan { policy with management := management } now).map (·.dueDate) =
        .ok due

theorem followsSchedule_of_fixed (h : policy.profile = .fixed) (z : Zone) (loan : Loan) :
    FollowsSchedule z loan policy := by
  constructor
  case same =>
    intro c c' now now' limit offset
    have hstrategy : Strategy.ofPolicy policy now z = Strategy.ofPolicy
        { policy with limit := limit, openingOffset := offset } now' z := by
      unfold Strategy.ofPolicy
      rw [h]
      cases policy.management <;> rfl
    rw [calculate_eq_of_fixed h, calculate_eq_of_fixed (s := ⟨c', z⟩) (by exact h), hstrategy]
    rfl
  case noSchedule =>
    intro hnone c now
    rw [calculate_eq_of_fixed h, initialDueDate_of_fixed h, LoanPolicy.fixedSchedule, hnone]
    rfl
  case outside =>
    intro schedule hschedule hnone c now
    rw [calculate_eq_of_fixed h, initialDueDate_of_fixed h, LoanPolicy.fixedSchedule, hschedule,
      Result.ok_bind, Schedule.dueDateFor_eq_error hnone]
    rfl
  case due =>
    intro schedule hschedule r hr hshown
    obtain ⟨due, hdue, -⟩ := Zone.exists_resolve_eq_ok hshown
    refine ⟨due, hdue, fun c now management => ?_⟩
    have hfixed : { policy with management := management }.profile = .fixed := h
    have hinitial : initialDueDate ⟨c, z⟩ loan { policy with management := management } =
        .ok due :=
      (initialDueDate_of_isFirst (s := ⟨c, z⟩) hfixed hschedule hr).trans hdue
    rw [calculate_eq_of_fixed hfixed, hinitial, Result.ok_bind,
      dueDate_of_endsDay hfixed (Zone.endOfDay_eq_ok_iff.mp hdue) hshown]
    rfl

/-! ## All policies that keep the date -/

/-- Calendars under which a policy that keeps the date gives different outcomes: the policy has a
limit, and the candidate, which is the same with every calendar, is later than that. -/
theorem exists_limit_of_ne (hkeeps : policy.management = .keepCurrentDate ∨
      policy.management = .keepCurrentDateTime) (hrolling : policy.profile = .rolling)
    (hne : calculate ⟨c, z⟩ loan policy now ≠ calculate ⟨c', z⟩ loan policy now) :
    ∃ limit r free, policy.limit = some limit ∧ limit.IsFirst (z.localDate loan.loanDate) r ∧
      (∀ c, calculate ⟨c, z⟩ loan { policy with limit := none } now = .ok free) ∧
      r.due < z.localDate free.dueDate := by
  have hfixed : policy.isFixed = false := by simp [LoanPolicy.isFixed, hrolling]
  -- Without the limit nothing asks the calendar, so that both runs have the same candidate.
  have hsame : ∀ c'', calculate ⟨c'', z⟩ loan { policy with limit := none } now =
      calculate ⟨c, z⟩ loan { policy with limit := none } now := by
    intro c''
    have hstrategy : ∀ s : Service, (Strategy.ofPolicy { policy with limit := none } now
        s.zone).requiresCalendar = false :=
      fun s => Strategy.requiresCalendar_of_keepsDate (.inr hkeeps)
    rw [calculate_of_noCalendar rfl (hstrategy _), calculate_of_noCalendar rfl (hstrategy _)]
    rfl
  cases hlimit : policy.limit with
  | none =>
    have heq : { policy with limit := none } = policy := by rw [← hlimit]
    rw [heq] at hsame
    exact absurd (hsame c').symm hne
  | some limit =>
    have heq : policy.withLimit limit = policy := by rw [LoanPolicy.withLimit, ← hlimit]
    have hlimited : ∀ c'', KeepsLimit ⟨c'', z⟩ loan limit
        (calculate ⟨c, z⟩ loan { policy with limit := none } now)
        (calculate ⟨c'', z⟩ loan policy now) := by
      intro c''
      have hlimited : KeepsLimit ⟨c'', z⟩ loan limit
          (calculate ⟨c'', z⟩ loan { policy with limit := none } now)
          (calculate ⟨c'', z⟩ loan (policy.withLimit limit) now) := keepsLimit_of_rolling hfixed
      rwa [hsame, heq] at hlimited
    cases hfree : calculate ⟨c, z⟩ loan { policy with limit := none } now with
    | error e => exact absurd (((hlimited c).error e hfree).trans
        ((hlimited c').error e hfree).symm) hne
    | ok free =>
      rcases limit.outside_or_exists_isFirst (z.localDate loan.loanDate) with hnone | ⟨r, hr⟩
      · exact absurd (((hlimited c).outside free hfree hnone).trans
          ((hlimited c').outside free hfree hnone).symm) hne
      · refine ⟨limit, r, free, rfl, hr, fun c'' => (hsame c'').trans hfree,
          lt_of_not_ge fun hle => hne ?_⟩
        exact ((hlimited c).within free hfree r hr hle).trans
          ((hlimited c').within free hfree r hr hle).symm

/-- A fixed policy follows its schedule, whatever the calendar, and a rolling one that keeps the
date depends on the calendar only beyond its limit. Local dates past the ends of the calendar, which
no clock would show, are looked up like any others. -/
theorem calculate_ignoresCalendar (z : Zone) (loan : Loan) (policy : LoanPolicy) :
    (policy.profile = .fixed → FollowsSchedule z loan policy) ∧
    (policy.profile = .rolling →
      policy.management = .keepCurrentDate ∨ policy.management = .keepCurrentDateTime →
      ∀ c c' now, calculate ⟨c, z⟩ loan policy now ≠ calculate ⟨c', z⟩ loan policy now →
        ∃ limit r free, policy.limit = some limit ∧
          limit.IsFirst (z.localDate loan.loanDate) r ∧
          (∀ c, calculate ⟨c, z⟩ loan { policy with limit := none } now = .ok free) ∧
          r.due < z.localDate free.dueDate) :=
  ⟨fun hfixed => followsSchedule_of_fixed hfixed z loan,
    fun hrolling hkeeps _ _ _ hne => exists_limit_of_ne hkeeps hrolling hne⟩

/-- Due on 24 October 2026, the last second of which is shown twice in Beirut. -/
def octoberSchedule : Schedule := ⟨"october", [⟨⟨20485⟩, ⟨20543⟩, ⟨20750⟩⟩]⟩

theorem calculate_ignoresCalendar_march :
    let october := LoanPolicy.fixed "fixed" octoberSchedule .endOfNextOpenDay
    let limited := threeWeeks.withLimit marchLimit
    (october.profile = .fixed ∧ (∀ c now, (calculate ⟨c, Zone.beirut⟩ marchLoan october now).map
        (·.dueDate) = .ok (.ofSecond 1792875599))) ∧
    limited.profile = .rolling ∧ limited.management = .keepCurrentDate ∧
    marchService.calculate marchLoan limited marchLoan.loanDate ≠
      calculate ⟨.ofRecords [], Zone.kathmandu⟩ marchLoan limited marchLoan.loanDate ∧
    ∃ limit r free, limited.limit = some limit ∧
      limit.IsFirst (Zone.kathmandu.localDate marchLoan.loanDate) r ∧
      (∀ c, calculate ⟨c, Zone.kathmandu⟩ marchLoan { limited with limit := none }
        marchLoan.loanDate = .ok free) ∧
      r.due < Zone.kathmandu.localDate free.dueDate := by
  intro october limited
  have hne : marchService.calculate marchLoan limited marchLoan.loanDate ≠
      calculate ⟨.ofRecords [], Zone.kathmandu⟩ marchLoan limited marchLoan.loanDate := by
    intro heq
    have hmap := congrArg (Except.map (·.dueDate)) heq
    revert hmap
    decide +kernel
  refine ⟨⟨rfl, fun c now => ?_⟩, rfl, rfl, hne, ?_⟩
  · obtain ⟨hfixed, -⟩ := calculate_ignoresCalendar Zone.beirut marchLoan october
    have hfirst : octoberSchedule.IsFirst (Zone.beirut.localDate marchLoan.loanDate)
        ⟨⟨20485⟩, ⟨20543⟩, ⟨20750⟩⟩ := ⟨by decide +kernel, [], [], rfl, by simp⟩
    have hshown : (Zone.beirut.shownAt ((⟨20750⟩ : Date).at .lastSecond)).Nonempty :=
      ⟨.ofSecond 1792875599, by decide +kernel, by decide⟩
    obtain ⟨due, hdue, hoctober⟩ := (hfixed rfl).due octoberSchedule rfl _ hfirst hshown
    have heq : Zone.beirut.endOfDay ⟨20750⟩ = .ok (.ofSecond 1792875599) := by decide +kernel
    obtain rfl := Except.ok.inj (hdue.symm.trans heq)
    exact hoctober c now _
  · obtain ⟨-, hrolling⟩ := calculate_ignoresCalendar Zone.kathmandu marchLoan limited
    exact hrolling rfl (.inl rfl) _ _ _ hne

end Service

end Circulation
