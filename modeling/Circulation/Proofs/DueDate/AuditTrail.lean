import Circulation.Proofs.DueDate.Limit

/-!
# Audit trails

A trail is added to step by step, and its numbers stay in order. The steps of a calculation lead
from the initial due date to the one returned, each from the value that the one before it came to.
What is returned is the managed initial due date, and a calculation fails just where one of the two
is not found.
-/

namespace Circulation

open Wire

/-! ## Steps -/

namespace AuditStep

/-- The step came to an instant. -/
def CameTo (step : AuditStep) (t : Instant) : Prop :=
  step.output.get? "due_date" = some (instantJson t)

/-- The step went out from an instant, its input under a key. -/
def WentFrom (step : AuditStep) (key : String) (t : Instant) : Prop :=
  step.input.get? key = some (instantJson t)

end AuditStep

/-! ## Trails -/

namespace AuditTrail

variable {trail : AuditTrail}

/-- The steps are numbered from one on. -/
def Numbered (trail : AuditTrail) : Prop :=
  trail.steps.map (·.number) = List.range' 1 trail.steps.length

theorem numbered_empty : Numbered .empty := rfl

theorem Numbered.record (h : trail.Numbered) (ruleId ruleName : String) (input output : Json)
    (reasoning : String) : (trail.record ruleId ruleName input output reasoning).Numbered := by
  have hsteps : trail.steps.map (·.number) = List.range' 1 trail.steps.length := h
  simp only [Numbered, AuditTrail.record, AuditStep.blank, List.map_append, List.map_singleton,
    List.length_append, List.length_singleton, hsteps, List.range'_1_concat, Nat.add_comm 1]

theorem Numbered.recordInitial (h : trail.Numbered) (loan : Loan) (policy : LoanPolicy)
    (initial : Instant) : (trail.recordInitial loan policy initial).Numbered :=
  h.record _ _ _ _ _

theorem Numbered.recordStrategy (h : trail.Numbered) (policy : LoanPolicy) (strategy : Strategy)
    (requested candidate : Instant) :
    (trail.recordStrategy policy strategy requested candidate).Numbered :=
  h.record _ _ _ _ _

theorem Numbered.recordLimit (h : trail.Numbered) (candidate : Instant) (check : LimitCheck) :
    (trail.recordLimit candidate check).Numbered := by
  cases check with
  | within limitDate => exact h.record _ _ _ _ _
  | exceeded limitDate strategy dueDate => exact h.record _ _ _ _ _

theorem exists_recordInitial (trail : AuditTrail) (loan : Loan) (policy : LoanPolicy)
    (initial : Instant) :
    ∃ step, (trail.recordInitial loan policy initial).steps = trail.steps ++ [step] ∧
      step.ruleId = "initial_due_date" ∧ step.CameTo initial :=
  ⟨_, rfl, rfl, rfl⟩

theorem exists_recordStrategy (trail : AuditTrail) (policy : LoanPolicy) (strategy : Strategy)
    (requested candidate : Instant) :
    ∃ step, (trail.recordStrategy policy strategy requested candidate).steps =
        trail.steps ++ [step] ∧
      step.ruleId = "closed_library_strategy" ∧ step.WentFrom "requested" requested ∧
      step.CameTo candidate :=
  ⟨_, rfl, rfl, rfl, rfl⟩

theorem exists_recordLimit (trail : AuditTrail) (candidate : Instant) (check : LimitCheck) :
    ∃ step, (trail.recordLimit candidate check).steps = trail.steps ++ [step] ∧
      step.ruleId = "due_date_limit" ∧ step.WentFrom "candidate" candidate ∧
      step.CameTo (check.dueDate candidate) := by
  cases check with
  | within limitDate => exact ⟨_, rfl, rfl, rfl, rfl⟩
  | exceeded limitDate strategy dueDate => exact ⟨_, rfl, rfl, rfl, rfl⟩

end AuditTrail

/-! ## Calculations -/

namespace Service

variable {s : Service} {loan : Loan} {policy : LoanPolicy} {requested initial now : Instant}
  {trail : AuditTrail} {r : Instant × AuditTrail}

theorem numbered_of_manage (h : s.manage loan policy requested now trail = .ok r)
    (htrail : trail.Numbered) : r.2.Numbered := by
  obtain ⟨strategy, candidate, -, -, ⟨-, rfl⟩ | ⟨limit, check, -, -, -, rfl⟩⟩ := exists_of_manage h
  · exact htrail.recordStrategy _ _ _ _
  · exact (htrail.recordStrategy _ _ _ _).recordLimit _ _

/-- The steps of an outcome are numbered in order and lead from the initial due date by way of the
candidate, which the strategy of the policy came to, to the due date of the outcome. -/
structure Explains (s : Service) (loan : Loan) (policy : LoanPolicy) (now initial : Instant)
    (o : Outcome) : Prop where
  numbers : o.steps.map (·.number) = List.range' 1 o.steps.length
  rules : o.steps.map (·.ruleId) = "initial_due_date" :: "closed_library_strategy" ::
    if policy.HasLimit then ["due_date_limit"] else []
  links : ∃ first second rest candidate, o.steps = first :: second :: rest ∧
    first.CameTo initial ∧ second.WentFrom "requested" initial ∧
    s.run (Strategy.ofPolicy policy now s.zone) loan.checkoutServicePoint initial = .ok candidate ∧
    second.CameTo candidate ∧ ∀ step ∈ rest, step.WentFrom "candidate" candidate
  last : ∃ step, o.steps.getLast? = some step ∧ step.CameTo o.dueDate

theorem explains_of_manage
    (h : s.manage loan policy initial now (.recordInitial .empty loan policy initial) = .ok r) :
    Explains s loan policy now initial ⟨loan.id, r.1, r.2.steps⟩ := by
  have hnumbers :=
    numbered_of_manage h (AuditTrail.numbered_empty.recordInitial loan policy initial)
  obtain ⟨strategy, candidate, rfl, hrun, hlimit⟩ := exists_of_manage h
  obtain ⟨first, hfirst, hfirstRule, hinitial⟩ :=
    AuditTrail.empty.exists_recordInitial loan policy initial
  obtain ⟨second, hsecond, hsecondRule, hrequested, hcandidate⟩ :=
    (AuditTrail.empty.recordInitial loan policy initial).exists_recordStrategy policy
      (Strategy.ofPolicy policy now s.zone) initial candidate
  rw [hfirst] at hsecond
  -- Without a check the second step is the last one, and with one the third.
  rcases hlimit with ⟨hnone, rfl⟩ | ⟨limit, check, hhas, -, -, rfl⟩
  · refine ⟨hnumbers, ?_, ⟨first, second, [], candidate, hsecond, hinitial, hrequested, hrun,
      hcandidate, by simp⟩, second, ?_, hcandidate⟩
    · simp only [hsecond]
      rw [if_neg hnone]
      exact congrArg₂ (fun a b => [a, b]) hfirstRule hsecondRule
    · simp only [hsecond]
      rfl
  · obtain ⟨third, hthird, hthirdRule, hthirdFrom, hdue⟩ :=
      ((AuditTrail.empty.recordInitial loan policy initial).recordStrategy policy
        (Strategy.ofPolicy policy now s.zone) initial candidate).exists_recordLimit candidate check
    rw [hsecond] at hthird
    refine ⟨hnumbers, ?_, ⟨first, second, [third], candidate, hthird, hinitial, hrequested, hrun,
      hcandidate, List.forall_mem_singleton.mpr hthirdFrom⟩, third, ?_, hdue⟩
    · simp only [hthird]
      rw [if_pos hhas]
      simp only [AuditTrail.empty, List.nil_append, List.cons_append, List.map_cons, List.map_nil,
        hfirstRule, hsecondRule, hthirdRule]
    · simp only [hthird]
      rfl

/-- A calculation that succeeds returns the managed initial due date, and its steps explain it. One
fails just where the initial due date or the managed one is not found, and with that error. -/
theorem calculate_explained (s : Service) (loan : Loan) (policy : LoanPolicy) (now : Instant) :
    (∀ o, s.calculate loan policy now = .ok o → o.loanId = loan.id ∧
      ∃ initial, s.initialDueDate loan policy = .ok initial ∧
        s.managedDueDate loan policy initial now = .ok o.dueDate ∧
        Explains s loan policy now initial o) ∧
    ∀ e, s.calculate loan policy now = .error e ↔ s.initialDueDate loan policy = .error e ∨
      ∃ initial, s.initialDueDate loan policy = .ok initial ∧
        s.managedDueDate loan policy initial now = .error e := by
  refine ⟨fun o ho => ?_, fun e => ?_⟩
  · unfold calculate at ho
    simp only [Result.bind_eq_ok_iff, Result.pure_eq_ok_iff] at ho
    obtain ⟨initial, hinitial, r, hr, rfl⟩ := ho
    refine ⟨rfl, initial, hinitial, ?_, explains_of_manage hr⟩
    rw [← map_manage, hr]
    rfl
  · unfold calculate
    simp only [Result.bind_eq_error_iff, Result.pure_ne_error, and_false, exists_false, or_false,
      manage_eq_error_iff]

/-- Three weeks are beyond the limit, and so the third step moves the loan back. -/
theorem calculate_explained_march :
    let policy := threeWeeks.withLimit marchLimit
    let now := marchLoan.loanDate
    ∃ o initial, marchService.calculate marchLoan policy now = .ok o ∧
      marchService.initialDueDate marchLoan policy = .ok initial ∧
      marchService.managedDueDate marchLoan policy initial now = .ok o.dueDate ∧
      initial = .ofSecond 1774289699 ∧ o.dueDate = .ofSecond 1773054900 ∧
      Explains marchService marchLoan policy now initial o ∧
      o.steps.map (·.ruleId) =
        ["initial_due_date", "closed_library_strategy", "due_date_limit"] := by
  intro policy now
  have hdue : (marchService.calculate marchLoan policy now).map (·.dueDate) =
      .ok (.ofSecond 1773054900) := by decide +kernel
  have hinitial : marchService.initialDueDate marchLoan policy = .ok (.ofSecond 1774289699) := by
    decide +kernel
  obtain ⟨o, ho, hodue⟩ := Result.map_eq_ok_iff.mp hdue
  obtain ⟨hsuccess, -⟩ := calculate_explained marchService marchLoan policy now
  obtain ⟨-, initial, hinitial', hmanaged, hexplains⟩ := hsuccess o ho
  have heq : initial = .ofSecond 1774289699 := Except.ok.inj (hinitial'.symm.trans hinitial)
  have hlimit : policy.HasLimit := by decide
  have hrules := hexplains.rules
  rw [if_pos hlimit] at hrules
  exact ⟨o, initial, ho, hinitial', hmanaged, heq, hodue, hexplains, hrules⟩

end Service

end Circulation
