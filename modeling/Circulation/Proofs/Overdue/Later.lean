import Circulation.Proofs.Overdue.ClosedTime
import Mathlib

/-!
# Overdue minutes as time passes

As time passes the overdue stretch grows, and so do the days looked up for it, unless the service
point's clock is set back into an earlier date. The minutes counted never become fewer, and grace
forgives fewer minutes before it forgives more.
-/

namespace Circulation

open OpeningDay

namespace Overdue

variable {loan : Loan} {policy : FinePolicy} {c : Calendar}
  {due earlier later : Instant} {countClosed : Bool} {n : Int}

/-! ## Days and minutes -/

/-- A later last date takes in no fewer days. -/
theorem between_subset {r : Register} {first last last' : Date} (h : last ≤ last') :
    r.between first last false ⊆ r.between first last' false := by
  intro d hd
  unfold Register.between at hd ⊢
  simp only [Bool.false_eq_true, if_false, List.mem_filter, decide_eq_true_eq] at hd ⊢
  obtain ⟨hmem, hfirst, hlast, hrest⟩ := hd
  exact ⟨hmem, hfirst, hlast.trans h, hrest⟩

theorem minutesSince_mono (hdue : ¬ due.IsLeapSecond) (hearlier : ¬ earlier.IsLeapSecond)
    (hlater : ¬ later.IsLeapSecond) (hlate : due ≤ earlier) (hle : earlier ≤ later) :
    0 ≤ earlier.minutesSince due ∧ earlier.minutesSince due ≤ later.minutesSince due := by
  have hstart := (Moment.nanos_le_iff hdue hearlier).mpr hlate
  have hnanos := (Moment.nanos_le_iff hearlier hlater).mpr hle
  rw [Moment.minutesSince_eq hearlier hdue hlate,
    Moment.minutesSince_eq hlater hdue (hlate.trans hle), nanosPerSecond]
  omega

/-! ## Overdue minutes -/

/-- The clock of the item's service point does not show an earlier date at the later instant. -/
def DatesInOrder (c : Calendar) (loan : Loan) (earlier later : Instant) : Prop :=
  ∀ sp r, loan.primaryServicePoint = some sp → c.register sp = .ok r →
    r.zone.localDate earlier ≤ r.zone.localDate later

theorem elapsedMinutes_mono (hleap : ∀ sp r, loan.primaryServicePoint = some sp →
      c.register sp = .ok r → ∀ d ∈ r.days, d.NoLeap)
    (hdue : ¬ loan.dueDate.IsLeapSecond) (hearlier : ¬ earlier.IsLeapSecond)
    (hlater : ¬ later.IsLeapSecond) (hlate : loan.dueDate ≤ earlier) (hle : earlier ≤ later)
    (hdates : DatesInOrder c loan earlier later)
    (h : elapsedMinutes c loan countClosed later = .ok n) :
    ∃ m, elapsedMinutes c loan countClosed earlier = .ok m ∧ 0 ≤ m ∧ m ≤ n := by
  unfold elapsedMinutes Calendar.daysBetween at h ⊢
  split at h
  · rename_i sp hsp
    simp only [Result.bind_eq_ok_iff, Result.pure_eq_ok_iff] at h ⊢
    obtain ⟨days, ⟨r, hr, rfl⟩, hn⟩ := h
    have hcountable := countable_of_openMinutes hn
      fun d hd => hleap sp r hsp hr d (mem_of_mem_between hd)
    obtain ⟨m, n', hm, hn', hnonneg, hmn⟩ := hcountable.openMinutes_grow hdue hearlier hlater hle
      (between_subset (hdates sp r hsp hr))
    obtain rfl := Except.ok.inj (hn'.symm.trans hn)
    exact ⟨m, ⟨_, ⟨r, hr, rfl⟩, hm⟩, hnonneg, hmn⟩
  · obtain rfl := Except.ok.inj h
    exact ⟨_, rfl, minutesSince_mono hdue hearlier hlater hlate hle⟩

theorem minutes_of_overdue (hcount : policy.countClosed = some countClosed)
    (h : loan.dueDate < later) :
    minutes c loan policy later =
      elapsedMinutes c loan countClosed later >>= fun n => pure (afterGrace loan policy n) := by
  have hoverdue : loan.isOverdue later = true := by simpa [Loan.isOverdue] using h
  unfold minutes
  rw [hcount]
  simp only [hoverdue, if_true]

theorem minutes_of_not_overdue (h : later ≤ loan.dueDate) :
    minutes c loan policy later = .ok 0 := by
  have hoverdue : loan.isOverdue later = false := by simpa [Loan.isOverdue] using h
  unfold minutes
  simp only [hoverdue, Bool.false_eq_true, if_false]
  split <;> rfl

/-- Overdue minutes that are found at an instant are found at every earlier one whose date is no
later, and there they are no more. -/
theorem minutes_mono (hleap : ∀ sp r, loan.primaryServicePoint = some sp →
      c.register sp = .ok r → ∀ d ∈ r.days, d.NoLeap)
    (hdue : ¬ loan.dueDate.IsLeapSecond) (hearlier : ¬ earlier.IsLeapSecond)
    (hlater : ¬ later.IsLeapSecond) (hle : earlier ≤ later)
    (hdates : DatesInOrder c loan earlier later) (h : minutes c loan policy later = .ok n) :
    ∃ m, minutes c loan policy earlier = .ok m ∧ 0 ≤ m ∧ m ≤ n := by
  cases hcount : policy.countClosed with
  | none =>
    have hnone : ∀ now, minutes c loan policy now = .ok 0 := fun now => by rw [minutes, hcount]
    obtain rfl := Except.ok.inj ((hnone later).symm.trans h)
    exact ⟨0, hnone earlier, le_rfl, le_rfl⟩
  | some countClosed =>
    rcases le_or_gt later loan.dueDate with hnotLate | hlate
    · obtain rfl := Except.ok.inj ((minutes_of_not_overdue hnotLate).symm.trans h)
      exact ⟨0, minutes_of_not_overdue (hle.trans hnotLate), le_rfl, le_rfl⟩
    · rw [minutes_of_overdue hcount hlate] at h
      simp only [Result.bind_eq_ok_iff, Result.pure_eq_ok_iff] at h
      obtain ⟨elapsed, helapsed, rfl⟩ := h
      rcases le_or_gt earlier loan.dueDate with hnotYet | hearly
      · -- The elapsed minutes at the later instant are themselves no fewer than none.
        obtain ⟨m, -, hnonneg, hm⟩ := elapsedMinutes_mono hleap hdue hlater hlater hlate.le le_rfl
          (fun _ _ _ _ => le_rfl) helapsed
        exact ⟨0, minutes_of_not_overdue hnotYet, le_rfl, afterGrace_nonneg (hnonneg.trans hm)⟩
      · obtain ⟨m, hm, hnonneg, hmn⟩ :=
          elapsedMinutes_mono hleap hdue hearlier hlater hearly.le hle hdates helapsed
        refine ⟨afterGrace loan policy m, ?_, afterGrace_nonneg hnonneg,
          afterGrace_mono hnonneg hmn⟩
        rw [minutes_of_overdue hcount hearly, hm]
        rfl

/-- The night hours and, a day after they end, the day hours. -/
def nightThenDay : List (ServicePoint × OpeningDay) := [(.zero, nightHours), (.zero, dayHours)]

/-- Fifty minutes into the night hours an hour of grace still forgives them. An hour into the day
hours the date is later, the day hours are looked up as well, and grace no longer helps. -/
theorem minutes_mono_night :
    let policy : FinePolicy := { nightPolicy with gracePeriod := some ⟨1, .hours⟩ }
    let earlier : Instant := .ofSecond 1773073200
    let later : Instant := .ofSecond 1773190800
    (∀ sp r, nightLoan.primaryServicePoint = some sp →
      (Calendar.ofRecords nightThenDay).register sp = .ok r → ∀ d ∈ r.days, d.NoLeap) ∧
    DatesInOrder (.ofRecords nightThenDay) nightLoan earlier later ∧
    minutes (.ofRecords nightThenDay) nightLoan policy later = .ok 150 ∧
    minutes (.ofRecords nightThenDay) nightLoan policy earlier = .ok 0 ∧
    ∃ m, minutes (.ofRecords nightThenDay) nightLoan policy earlier = .ok m ∧ 0 ≤ m ∧ m ≤ 150 := by
  intro policy earlier later
  have hdays : ∀ sp r, (Calendar.ofRecords nightThenDay).register sp = .ok r → ∀ d ∈ r.days,
      d = nightHours ∨ d = dayHours := by
    intro sp r hr d hd
    have hmem := (((Calendar.agrees_of_register hr).2 d).mp hd).mem
    rcases List.mem_pair.mp hmem with heq | heq
    · exact .inl (Prod.mk.inj heq).2
    · exact .inr (Prod.mk.inj heq).2
  have hleap : ∀ sp r, nightLoan.primaryServicePoint = some sp →
      (Calendar.ofRecords nightThenDay).register sp = .ok r → ∀ d ∈ r.days, d.NoLeap := by
    intro sp r _ hr d hd
    rcases hdays sp r hr d hd with rfl | rfl <;> exact noLeap_withHours (by decide)
  have hdates : DatesInOrder (.ofRecords nightThenDay) nightLoan earlier later := by
    intro sp r hsp hr
    obtain rfl := Option.some.inj hsp
    obtain ⟨⟨first, hfirst, hzone⟩, -⟩ := Calendar.agrees_of_register hr
    obtain rfl := Option.some.inj (hfirst.symm.trans (show _ = some nightHours from rfl))
    rw [hzone]
    decide
  have hlater : minutes (.ofRecords nightThenDay) nightLoan policy later = .ok 150 := by
    cbv
  exact ⟨hleap, hdates, hlater, by decide +kernel,
    minutes_mono hleap (by decide) (by decide) (by decide) (by decide) hdates hlater⟩

end Overdue

end Circulation
