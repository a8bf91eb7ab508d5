import Circulation.Proofs.DueDate.Limit
import Circulation.Proofs.DueDate.NearestWindow

/-!
# Later limits

A limit pulls the due date of a longer loan back to the end of its date, and from there out of
closed time to the previous closing. The closing before a later instant is no earlier. What is due
at midnight is due a second before, but an earlier limit ends by that second.
-/

namespace Circulation

open OpeningDay
open Calendar (Recorded ofRecords)
open Strategy (dueAtClosing dueAtClosing_le)

/-! ## Previous closings -/

namespace MovesBack

variable {z : Zone} {windows : Set (Span .utc)} {requested due earlier later m n : Instant}

theorem le_requested (h : MovesBack z windows requested due) : due ≤ requested := by
  by_cases hopen : ∃ w ∈ windows, requested ∈ w
  · exact (h.eq_of_open hopen).le
  · obtain ⟨x, hx, rfl⟩ := h.exists_of_closed fun w hw hm => hopen ⟨w, hw, hm⟩
    exact (dueAtClosing_le z x).trans hx.1.1

/-- A later request is due no earlier. -/
theorem mono (hdue : ∀ w ∈ windows, ∀ stop, w.stop ≤ stop →
      dueAtClosing z w.stop ≤ dueAtClosing z stop) (hwhole : earlier.nano = 0)
    (hle : earlier ≤ later) (hm : MovesBack z windows earlier m)
    (hn : MovesBack z windows later n) : m ≤ n := by
  by_cases hopen : ∃ w ∈ windows, later ∈ w
  · rw [hn.eq_of_open hopen]
    exact hm.le_requested.trans hle
  have hclosed : ∀ w ∈ windows, later ∉ w := fun w hw hmem => hopen ⟨w, hw, hmem⟩
  obtain ⟨y, hy, rfl⟩ := hn.exists_of_closed hclosed
  by_cases hopen' : ∃ w ∈ windows, earlier ∈ w
  · -- The hours open at the earlier instant close between the two.
    rw [hm.eq_of_open hopen']
    obtain ⟨w, hw, hstart, hstop⟩ := hopen'
    have hover : w.stop ≤ later :=
      le_of_not_gt fun hlt => hclosed w hw ⟨hstart.trans hle, hlt⟩
    exact Strategy.le_dueAtClosing hwhole (hstop.trans_le (hy.2 ⟨hover, w, hw, rfl⟩))
  · obtain ⟨x, hx, rfl⟩ := hm.exists_of_closed fun w hw hmem => hopen' ⟨w, hw, hmem⟩
    obtain ⟨hxle, w, hw, rfl⟩ := hx.1
    exact hdue w hw y (hy.2 ⟨hxle.trans hle, w, hw, rfl⟩)

end MovesBack

namespace Service

variable {s : Service} {sp : ServicePoint} {z : Zone} {offset : Int} {loan : Loan}
  {policy : LoanPolicy} {limit : Schedule} {now candidate due : Instant} {limitDate date : Date}
  {o : Outcome}

/-! ## Under a limit -/

/-- The due date to which a limit date pulls back the candidate of a loan that is not short. -/
def PulledBack (s : Service) (sp : ServicePoint) (limitDate : Date) (candidate due : Instant) :
    Prop :=
  (s.zone.localDate candidate ≤ limitDate ∧ due = candidate) ∨
  limitDate < s.zone.localDate candidate ∧ ∃ latest moved, s.zone.endOfDay limitDate = .ok latest ∧
    s.run .endOfPreviousOpenDay sp latest = .ok moved ∧ due = min moved latest

theorem exists_pulledBack (hfixed : policy.isFixed = false) (hshort : policy.isShortTerm = false)
    (hlimit : limit.dueDateFor (s.zone.localDate loan.loanDate) = .ok limitDate)
    (ho : s.calculate loan (policy.withLimit limit) now = .ok o) :
    ∃ c, s.calculate loan { policy with limit := none } now = .ok c ∧
      s.PulledBack loan.checkoutServicePoint limitDate c.dueDate o.dueDate := by
  cases hfree : s.calculate loan { policy with limit := none } now with
  | error e => cases ho.symm.trans (calculate_withLimit_eq_error hfixed hfree)
  | ok c =>
    refine ⟨c, rfl, ?_⟩
    rw [calculate_withLimit_eq hfixed limit hfree] at ho
    obtain ⟨check, hcheck, ho⟩ := Result.bind_eq_ok_iff.mp ho
    obtain rfl := Result.pure_eq_ok_iff.mp ho
    rcases le_or_gt (s.zone.localDate c.dueDate) limitDate with hle | hlt
    · obtain rfl := Except.ok.inj ((checkLimit_within hlimit hle).symm.trans hcheck)
      exact .inl ⟨hle, rfl⟩
    · have hbackward : Strategy.movingBackward policy now = .endOfPreviousOpenDay := by
        simp [Strategy.movingBackward, hshort]
      obtain ⟨latest, moved, hlatest, hmoved, rfl⟩ := checkLimit_exceeded hlimit hlt hcheck
      exact .inr ⟨hlt, latest, moved, hlatest, hbackward ▸ hmoved, rfl⟩

theorem exists_of_exceeded {c : Outcome} {latest moved : Instant} (hfixed : policy.isFixed = false)
    (hc : s.calculate loan { policy with limit := none } now = .ok c)
    (hlimit : limit.dueDateFor (s.zone.localDate loan.loanDate) = .ok limitDate)
    (hlt : limitDate < s.zone.localDate c.dueDate)
    (hlatest : s.zone.endOfDay limitDate = .ok latest)
    (hmoved : s.run (Strategy.movingBackward policy now) loan.checkoutServicePoint latest =
      .ok moved) :
    ∃ o, s.calculate loan (policy.withLimit limit) now = .ok o ∧ o.dueDate = min moved latest := by
  rw [calculate_withLimit_eq hfixed limit hc, checkLimit_eq hlimit hlt, hlatest]
  simp only [Result.ok_bind, hmoved]
  exact ⟨_, rfl, rfl⟩

/-- If the end of the date is moved back at all, then to the previous closing of the windows. -/
def MovesDateBack (s : Service) (sp : ServicePoint) (windows : Set (Span .utc)) (date : Date) :
    Prop :=
  ∀ latest moved, s.zone.endOfDay date = .ok latest →
    s.run .endOfPreviousOpenDay sp latest = .ok moved →
      date.InRange ∧ MovesBack s.zone windows latest moved

/-- What is due under the limit is due no later than the candidate. -/
theorem PulledBack.le_candidate {windows : Set (Span .utc)}
    (h : s.PulledBack sp limitDate candidate due) (hz : s.zone.IsFixed offset)
    (hback : s.MovesDateBack sp windows limitDate) : due ≤ candidate := by
  rcases h with ⟨-, rfl⟩ | ⟨hlt, latest, moved, hlatest, hmoved, rfl⟩
  · exact le_rfl
  · obtain ⟨hrange, -⟩ := hback latest moved hlatest hmoved
    exact (lt_of_le_endOfDay hz hrange hlatest (min_le_right _ _) hlt).1.le

theorem endOfDay_le {d₁ d₂ : Date} {latest₁ latest₂ : Instant} (hz : z.IsFixed offset)
    (hd₁ : d₁.InRange) (hd₂ : d₂.InRange) (hle : d₁ ≤ d₂) (h₁ : z.endOfDay d₁ = .ok latest₁)
    (h₂ : z.endOfDay d₂ = .ok latest₂) : latest₁ ≤ latest₂ := by
  rw [← hz.toLocal_le_iff, hz.toLocal_endOfDay hd₁ h₁, hz.toLocal_endOfDay hd₂ h₂, Moment.le_def]
  rw [Date.le_def] at hle
  simp only [Date.at]
  omega

/-- One candidate is due no earlier under a later limit. -/
theorem PulledBack.mono {windows : Set (Span .utc)} {d₁ d₂ : Date} {due₁ due₂ : Instant}
    (hz : s.zone.IsFixed offset)
    (hdue : ∀ w ∈ windows, ∀ stop, w.stop ≤ stop →
      dueAtClosing s.zone w.stop ≤ dueAtClosing s.zone stop)
    (hback₁ : s.MovesDateBack sp windows d₁) (hback₂ : s.MovesDateBack sp windows d₂)
    (hle : d₁ ≤ d₂) (h₁ : s.PulledBack sp d₁ candidate due₁)
    (h₂ : s.PulledBack sp d₂ candidate due₂) : due₁ ≤ due₂ := by
  rcases h₂ with ⟨-, rfl⟩ | ⟨hlt, latest₂, moved₂, hlatest₂, hmoved₂, rfl⟩
  · exact h₁.le_candidate hz hback₁
  rcases h₁ with ⟨hwithin, -⟩ | ⟨-, latest₁, moved₁, hlatest₁, hmoved₁, rfl⟩
  · exact absurd (hwithin.trans hle) hlt.not_ge
  obtain ⟨hd₁, hmoves₁⟩ := hback₁ _ _ hlatest₁ hmoved₁
  obtain ⟨hd₂, hmoves₂⟩ := hback₂ _ _ hlatest₂ hmoved₂
  have hlatest := endOfDay_le hz hd₁ hd₂ hle hlatest₁ hlatest₂
  have hwhole : latest₁.nano = 0 := congrArg Moment.nano (hz.toLocal_endOfDay hd₁ hlatest₁)
  exact min_le_min (hmoves₁.mono hdue hwhole hlatest hmoves₂) hlatest

/-- Two limits check the same candidate. -/
theorem dueDate_le_of_movesDateBack (windows : Set (Span .utc)) {early late : Schedule}
    {d₁ d₂ : Date} {o₁ o₂ : Outcome} (hz : s.zone.IsFixed offset)
    (hdue : ∀ w ∈ windows, ∀ stop, w.stop ≤ stop →
      dueAtClosing s.zone w.stop ≤ dueAtClosing s.zone stop)
    (hback : ∀ date ∈ [d₁, d₂], s.MovesDateBack loan.checkoutServicePoint windows date)
    (hfixed : policy.isFixed = false) (hshort : policy.isShortTerm = false)
    (hearly : early.dueDateFor (s.zone.localDate loan.loanDate) = .ok d₁)
    (hlate : late.dueDateFor (s.zone.localDate loan.loanDate) = .ok d₂) (hle : d₁ ≤ d₂)
    (h₁ : s.calculate loan (policy.withLimit early) now = .ok o₁)
    (h₂ : s.calculate loan (policy.withLimit late) now = .ok o₂) : o₁.dueDate ≤ o₂.dueDate := by
  obtain ⟨c, hc, hpulled₁⟩ := exists_pulledBack hfixed hshort hearly h₁
  obtain ⟨c', hc', hpulled₂⟩ := exists_pulledBack hfixed hshort hlate h₂
  obtain rfl := Except.ok.inj (hc.symm.trans hc')
  exact hpulled₁.mono hz hdue (hback d₁ List.mem_cons_self)
    (hback d₂ (List.mem_cons_of_mem _ List.mem_cons_self)) hle hpulled₂

/-! ## Calendars of records -/

variable {records : List (ServicePoint × OpeningDay)}

theorem movesDateBack_ofRecords (hz : z.IsFixed offset)
    (hzone : ∀ d, (sp, d) ∈ records → d.zone = z)
    (hoverlap : NoOverlap {d | Recorded records sp d})
    (haway : ∀ a, (ofRecords records).adjacentDays sp date = .ok a → a.AwayFromEnds) :
    MovesDateBack ⟨ofRecords records, z⟩ sp (windowsOf {d | Recorded records sp d}) date := by
  intro latest moved hlatest hrun
  obtain ⟨r, hr⟩ := exists_register_of_run hrun
  obtain ⟨hfirst, hlast⟩ :=
    Register.date_of_awayFromEnds (haway _ (Calendar.adjacentDays_eq hr _))
  have hrange : date.InRange := by
    simp only [Date.InRange, Date.lt_def, Date.le_def, Date.addDays] at *
    omega
  have hdate : z.localDate latest = date := by
    rw [Zone.localDate, hz.toLocal_endOfDay hrange hlatest, Date.date_at]
  exact ⟨hrange, movesBack_of_run hz hzone hoverlap (hdate ▸ haway) hrun⟩

/-- A loan that is not short is due no earlier under a later limit, whatever strategy its policy
has. -/
theorem calculate_limit_mono {early late : Schedule} {d₁ d₂ : Date} {o₁ o₂ : Outcome}
    (hz : z.IsFixed offset) (hinner : ∀ d, (sp, d) ∈ records → d.IsInner z)
    (hoverlap : NoOverlap {d | Recorded records sp d})
    (haway : ∀ date ∈ [d₁, d₂], ∀ a, (ofRecords records).adjacentDays sp date = .ok a →
      a.AwayFromEnds)
    (hsp : loan.checkoutServicePoint = sp) (hprofile : policy.profile = .rolling)
    (hshort : policy.isShortTerm = false)
    (hearly : early.dueDateFor (z.localDate loan.loanDate) = .ok d₁)
    (hlate : late.dueDateFor (z.localDate loan.loanDate) = .ok d₂) (hle : d₁ ≤ d₂)
    (h₁ : calculate ⟨ofRecords records, z⟩ loan (policy.withLimit early) now = .ok o₁)
    (h₂ : calculate ⟨ofRecords records, z⟩ loan (policy.withLimit late) now = .ok o₂) :
    o₁.dueDate ≤ o₂.dueDate := by
  have hfixed : policy.isFixed = false := by simp [LoanPolicy.isFixed, hprofile]
  refine dueDate_le_of_movesDateBack (s := ⟨ofRecords records, z⟩)
    (windowsOf {d | Recorded records sp d}) hz ?_ ?_ hfixed hshort hearly hlate hle h₁ h₂
  · rintro w ⟨d, hd, hw⟩ stop hstop
    exact Strategy.dueAtClosing_mono hz (hinner d hd.mem) hw hstop
  · intro date hdate
    rw [hsp]
    exact movesDateBack_ofRecords hz (fun d hd => (hinner d hd).zone_eq) hoverlap
      (haway date hdate)

/-- The schedule that makes all loans of the season due on one date. -/
def dueOn (date : Date) : Schedule := ⟨"march", [⟨⟨20485⟩, ⟨20543⟩, date⟩]⟩

/-- The evening of the earlier limit date is in the night hours and stays. The next evening is in
closed time and moves back to the end of the night hours. -/
theorem calculate_limit_mono_night :
    let s : Service := ⟨ofRecords nightAndDay, Zone.tokyo⟩
    Zone.tokyo.IsFixed 32400 ∧ NoOverlap {d | Recorded nightAndDay .zero d} ∧
    ∃ o₁ o₂,
      s.calculate noonLoan (threeWeeks.withLimit (dueOn ⟨20521⟩)) noonLoan.loanDate = .ok o₁ ∧
      s.calculate noonLoan (threeWeeks.withLimit (dueOn ⟨20522⟩)) noonLoan.loanDate = .ok o₂ ∧
      o₁.dueDate = .ofSecond 1773068399 ∧ o₂.dueDate = .ofSecond 1773075600 ∧
      o₁.dueDate ≤ o₂.dueDate := by
  intro s
  have hends₁ : ((ofRecords nightAndDay).adjacentDays .zero ⟨20521⟩).map
      (fun a => (a.previous.date, a.next.date)) = .ok (⟨20520⟩, ⟨20523⟩) := by
    with_unfolding_all decide
  have hends₂ : ((ofRecords nightAndDay).adjacentDays .zero ⟨20522⟩).map
      (fun a => (a.previous.date, a.next.date)) = .ok (⟨20521⟩, ⟨20523⟩) := by
    with_unfolding_all decide
  have haway : ∀ date ∈ [⟨20521⟩, ⟨20522⟩], ∀ a,
      (ofRecords nightAndDay).adjacentDays .zero date = .ok a → a.AwayFromEnds := by
    intro date hdate a ha
    rcases List.mem_pair.mp hdate with rfl | rfl
    · exact AdjacentDays.awayFromEnds_of_dates hends₁ (by decide) (by decide) ha
    · exact AdjacentDays.awayFromEnds_of_dates hends₂ (by decide) (by decide) ha
  have hfree : (s.calculate noonLoan { threeWeeks with limit := none } noonLoan.loanDate).map
      (·.dueDate) = .ok (.ofSecond 1774364399) := by decide +kernel
  obtain ⟨c, hc, hcdue⟩ := Result.map_eq_ok_iff.mp hfree
  have hlate : (⟨20522⟩ : Date) < s.zone.localDate c.dueDate := by
    rw [hcdue]
    decide
  have hlimit₁ : (dueOn ⟨20521⟩).dueDateFor (s.zone.localDate noonLoan.loanDate) = .ok ⟨20521⟩ :=
    rfl
  have hlimit₂ : (dueOn ⟨20522⟩).dueDateFor (s.zone.localDate noonLoan.loanDate) = .ok ⟨20522⟩ :=
    rfl
  have hlatest₁ : s.zone.endOfDay ⟨20521⟩ = .ok (.ofSecond 1773068399) := by decide
  have hlatest₂ : s.zone.endOfDay ⟨20522⟩ = .ok (.ofSecond 1773154799) := by decide
  have hmoved₁ : s.run .endOfPreviousOpenDay .zero (.ofSecond 1773068399) =
      .ok (.ofSecond 1773068399) := by cbv
  have hmoved₂ : s.run .endOfPreviousOpenDay .zero (.ofSecond 1773154799) =
      .ok (.ofSecond 1773075600) := by cbv
  obtain ⟨o₁, h₁, ho₁⟩ :=
    exists_of_exceeded rfl hc hlimit₁ (lt_trans (by decide) hlate) hlatest₁ hmoved₁
  obtain ⟨o₂, h₂, ho₂⟩ := exists_of_exceeded rfl hc hlimit₂ hlate hlatest₂ hmoved₂
  refine ⟨Zone.tokyo_isFixed, noOverlap_nightAndDay, o₁, o₂, h₁, h₂, ho₁, ho₂, ?_⟩
  exact calculate_limit_mono Zone.tokyo_isFixed (fun d => isInner_of_mem_nightAndDay)
    noOverlap_nightAndDay haway rfl rfl rfl rfl rfl (by decide) h₁ h₂

end Service

end Circulation
