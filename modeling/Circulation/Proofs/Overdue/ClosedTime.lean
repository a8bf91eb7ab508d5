import Circulation.Proofs.Overdue.OpenTime

/-!
# Counting closed time

A policy that counts closed time charges no less than one that does not, and no more than the time
since the due date. Either can fall under the grace period, the smaller one before the larger.
-/

namespace Circulation

open OpeningDay

namespace Overdue

variable {days : List OpeningDay} {loan : Loan} {policy : FinePolicy} {due now : Instant}
  {m n : Int}

/-! ## Grace -/

theorem afterGrace_nonneg (hm : 0 ≤ m) : 0 ≤ afterGrace loan policy m := by
  unfold afterGrace
  split
  · exact hm
  · split
    · exact le_rfl
    · exact hm

theorem afterGrace_le (hm : 0 ≤ m) : afterGrace loan policy m ≤ m := by
  unfold afterGrace
  split
  · exact le_rfl
  · split
    · exact hm
    · exact le_rfl

/-- Minutes forgiven are under the grace period, and so are fewer minutes. -/
theorem afterGrace_mono (hm : 0 ≤ m) (hle : m ≤ n) :
    afterGrace loan policy m ≤ afterGrace loan policy n := by
  unfold afterGrace
  split
  · exact hle
  · split <;> split <;> omega

/-! ## Open time and all time -/

/-- No more open time than time is counted, in whatever days. -/
theorem openMinutes_le_minutesSince (h : openMinutes days due now = .ok n)
    (hleap : ∀ d ∈ days, d.NoLeap) (hdue : ¬ due.IsLeapSecond) (hnow : ¬ now.IsLeapSecond)
    (hle : due ≤ now) : 0 ≤ n ∧ n ≤ now.minutesSince due := by
  obtain ⟨spans, hspans, -⟩ := Result.bind_eq_ok_iff.mp h
  obtain rfl := Except.ok.inj (h.symm.trans (openMinutes_of_openTime hspans hleap hdue hnow))
  have hlength : length (stretch due now ∩ openMoments {d | d ∈ days}) ≤
      length (stretch due now) :=
    length_mono Set.inter_subset_left (finite_ordinary_stretch hdue hnow)
  have hnanos := (Moment.nanos_le_iff hdue hnow).mpr hle
  rw [length_stretch hdue hnow] at hlength
  refine ⟨Int.natCast_nonneg _, ?_⟩
  rw [Moment.minutesSince_eq hnow hdue hle, nanosPerSecond]
  omega

theorem elapsedMinutes_le_minutesSince {c : Calendar} {countClosed : Bool}
    (h : elapsedMinutes c loan countClosed now = .ok n)
    (hleap : ∀ sp r, c.register sp = .ok r → ∀ d ∈ r.days, d.NoLeap)
    (hdue : ¬ loan.dueDate.IsLeapSecond) (hnow : ¬ now.IsLeapSecond) (hle : loan.dueDate ≤ now) :
    0 ≤ n ∧ n ≤ now.minutesSince loan.dueDate := by
  have hall : 0 ≤ now.minutesSince loan.dueDate := by
    rw [Moment.minutesSince_eq hnow hdue hle]
    have hnanos := (Moment.nanos_le_iff hdue hnow).mpr hle
    exact Int.ediv_nonneg (Int.sub_nonneg.mpr hnanos) (by decide)
  unfold elapsedMinutes at h
  split at h
  · rename_i servicePoint hsp
    unfold Calendar.daysBetween at h
    simp only [Result.bind_eq_ok_iff, Result.pure_eq_ok_iff] at h
    obtain ⟨days, ⟨r, hr, rfl⟩, hn⟩ := h
    exact openMinutes_le_minutesSince hn
      (fun d hd => hleap servicePoint r hr d (mem_of_mem_between hd)) hdue hnow hle
  · obtain rfl := Except.ok.inj h
    exact ⟨hall, le_rfl⟩

/-! ## Two policies -/

/-- If the minutes without closed time are found then so are those with it, and they lie between the
former and the whole time since the due date. -/
theorem minutes_le_countingClosed {c : Calendar}
    (hleap : ∀ sp r, c.register sp = .ok r → ∀ d ∈ r.days, d.NoLeap)
    (hdue : ¬ loan.dueDate.IsLeapSecond) (hnow : ¬ now.IsLeapSecond)
    (h : minutes c loan { policy with countClosed := some false } now = .ok m) :
    ∃ n, minutes c loan { policy with countClosed := some true } now = .ok n ∧
      (loan.dueDate < now →
        0 ≤ m ∧ m ≤ n ∧ n ≤ (now.nanos - loan.dueDate.nanos) / (60 * nanosPerSecond)) ∧
      (now ≤ loan.dueDate → m = 0 ∧ n = 0) := by
  unfold minutes at h ⊢
  rcases lt_or_ge loan.dueDate now with hlate | hnotLate
  · have hoverdue : loan.isOverdue now = true := by simpa [Loan.isOverdue] using hlate
    simp only [hoverdue, if_true, Result.bind_eq_ok_iff, Result.pure_eq_ok_iff] at h ⊢
    obtain ⟨elapsed, helapsed, rfl⟩ := h
    obtain ⟨hnonneg, hle⟩ := elapsedMinutes_le_minutesSince helapsed hleap hdue hnow hlate.le
    refine ⟨_, ⟨now.minutesSince loan.dueDate, rfl, rfl⟩, fun _ => ⟨?_, ?_, ?_⟩,
      fun hge => absurd hlate hge.not_gt⟩
    · exact afterGrace_nonneg hnonneg
    · exact afterGrace_mono hnonneg hle
    · rw [← Moment.minutesSince_eq hnow hdue hlate.le]
      exact afterGrace_le (hnonneg.trans hle)
  · have hoverdue : loan.isOverdue now = false := by simpa [Loan.isOverdue] using hnotLate
    simp only [hoverdue, Bool.false_eq_true, if_false] at h ⊢
    obtain rfl := Except.ok.inj h
    exact ⟨0, rfl, fun hlt => absurd hlt hnotLate.not_gt, fun _ => ⟨rfl, rfl⟩⟩

/-- An hour and a half of night hours is forgiven, and more than eleven hours of all time are
not. -/
theorem minutes_le_countingClosed_night :
    let policy : FinePolicy := { nightPolicy with gracePeriod := some ⟨2, .hours⟩ }
    let now : Instant := .ofSecond 1773111600
    (∀ sp r, (Calendar.ofRecords nightRecords).register sp = .ok r → ∀ d ∈ r.days, d.NoLeap) ∧
    minutes (.ofRecords nightRecords) nightLoan { policy with countClosed := some false } now =
      .ok 0 ∧
    ∃ n, minutes (.ofRecords nightRecords) nightLoan { policy with countClosed := some true } now =
      .ok n ∧ 0 ≤ n ∧ n ≤ 690 := by
  intro policy now
  have hleap : ∀ sp r, (Calendar.ofRecords nightRecords).register sp = .ok r →
      ∀ d ∈ r.days, d.NoLeap := by
    intro sp r hr d hd
    have hmem := (((Calendar.agrees_of_register hr).2 d).mp hd).mem
    rcases List.mem_pair.mp hmem with heq | heq
    · obtain ⟨-, rfl⟩ := Prod.mk.inj heq
      decide
    · obtain ⟨-, rfl⟩ := Prod.mk.inj heq
      exact noLeap_withHours (by decide)
  have hminutes : minutes (.ofRecords nightRecords) nightLoan
      { policy with countClosed := some false } now = .ok 0 := by
    decide +kernel
  obtain ⟨n, hn, hlate, -⟩ := minutes_le_countingClosed hleap (by decide) (by decide) hminutes
  obtain ⟨-, hnonneg, hle⟩ := hlate (by decide)
  exact ⟨hleap, hminutes, n, hn, hnonneg, hle.trans_eq (by decide)⟩

end Overdue

end Circulation
