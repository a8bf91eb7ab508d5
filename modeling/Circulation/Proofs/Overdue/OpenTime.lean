import Circulation.Proofs.Calendar.Records
import Circulation.Proofs.Overdue.OpenMinutes
import Circulation.Zone.Named

/-!
# Overdue open time

Where closed time does not count, overdue time is the open time of all days recorded for the item's
service point, though only days from the one before the due date on are looked up: a window stops by
the end of the day that follows its own.
-/

namespace Circulation

open OpeningDay
open Calendar (Recorded daysBetween exists_register ofRecords)

namespace Overdue

variable {z : Zone} {offset : Int} {d : OpeningDay} {s : Span .utc} {due now m : Instant}

/-! ## The days looked up -/

/-- A plain day that is not over a day before the due date is looked up. -/
theorem localDate_dayBefore_le (hz : z.IsFixed offset) (hd : d.IsPlain z)
    (hdue : ¬ due.IsLeapSecond) (hdate : z.localDate due ≤ d.date.addDays 1) :
    z.localDate (dayBefore due) ≤ d.date := by
  have hlower := hz.lower
  have hupper := hz.upper
  have hfirst := hd.first_lt
  have hlast := hd.lt_last
  unfold dayBefore Moment.checked?
  rw [Moment.addSeconds_of_not_leap hdue]
  simp only [Zone.localDate, Zone.toLocal, Moment.date, hz.offsetAt_eq, Date.le_def, Date.lt_def,
    Date.addDays] at hdate hfirst hlast
  split
  · simp only [Option.getD_some, Zone.localDate, Zone.toLocal, Moment.date, hz.offsetAt_eq,
      Date.le_def]
    omega
  · -- Near the ends of the calendar the due date itself is as good as the day before.
    rename_i hrange
    simp only [Moment.inRange_iff] at hrange
    simp only [Option.getD_none, Zone.localDate, Zone.toLocal, Moment.date, hz.offsetAt_eq,
      Date.le_def]
    omega

/-- A day with a window that reaches into the stretch is looked up. -/
theorem mem_between {r : Register} (hz : z.IsFixed offset) (hzone : r.zone = z)
    (hd : d.IsPlain z) (hmem : d ∈ r.days) (hs : d.HasSpan s) (hdue : ¬ due.IsLeapSecond)
    (hm : m ∈ s) (hstretch : m ∈ stretch due now) :
    d ∈ r.between (r.zone.localDate (dayBefore due)) (r.zone.localDate now) false := by
  have hwindow := hs.toLocal_mem hz hd.zone_eq hd.first_lt
  obtain ⟨hstart, hstop, -⟩ := date_of_mem_openWindows hwindow
  have hbefore : z.localDate due ≤ d.date.addDays 1 :=
    (hz.localDate_mono (hstretch.1.trans hm.2.le)).trans hstop
  have hafter : d.date ≤ z.localDate now :=
    hstart.symm.trans_le (hz.localDate_mono (hm.1.trans hstretch.2.le))
  unfold Register.between
  simp only [Bool.false_eq_true, if_false, List.mem_filter, decide_eq_true_eq]
  rw [hzone]
  exact ⟨hmem, localDate_dayBefore_le hz hd hdue hbefore, hafter, hd.isInner.date_lt_last,
    isOpen_of_mem_openWindows hwindow⟩

theorem mem_of_mem_between {r : Register} {first last : Date}
    (h : d ∈ r.between first last false) : d ∈ r.days := by
  unfold Register.between at h
  simp only [Bool.false_eq_true, if_false] at h
  exact List.mem_of_mem_filter h

/-- The days looked up are open in the stretch whenever some recorded day is. -/
theorem stretch_inter_between {r : Register} (hz : z.IsFixed offset) (hzone : r.zone = z)
    (hplain : ∀ d ∈ r.days, d.IsPlain z) (hdue : ¬ due.IsLeapSecond) :
    stretch due now ∩ openMoments {d | d ∈
        r.between (r.zone.localDate (dayBefore due)) (r.zone.localDate now) false} =
      stretch due now ∩ openMoments {d | d ∈ r.days} := by
  ext m
  refine ⟨?_, ?_⟩
  · rintro ⟨hstretch, s, ⟨d, hd, hs⟩, hm⟩
    exact ⟨hstretch, s, ⟨d, mem_of_mem_between hd, hs⟩, hm⟩
  · rintro ⟨hstretch, s, ⟨d, hd, hs⟩, hm⟩
    exact ⟨hstretch, s, ⟨d, mem_between hz hzone (hplain d hd) hd hs hdue hm hstretch, hs⟩, hm⟩

/-! ## Open minutes -/

theorem countable_of_plain {days : List OpeningDay} (hz : z.IsFixed offset)
    (hplain : ∀ d ∈ days, d.IsPlain z) : Countable days :=
  ⟨fun d hd => (hplain d hd).isInner.exists_openSpans hz, fun d hd => (hplain d hd).noLeap⟩

/-- Minutes counted in plain days are the length of the days' open time. -/
theorem openMinutes_eq_length {days : List OpeningDay} (hz : z.IsFixed offset)
    (hplain : ∀ d ∈ days, d.IsPlain z) (hdue : ¬ due.IsLeapSecond) (hnow : ¬ now.IsLeapSecond) :
    openMinutes days due now = .ok
      (length (stretch due now ∩ openMoments {d | d ∈ days}) / (60 * nanosPerSecond) : Nat) :=
  (countable_of_plain hz hplain).openMinutes_eq hdue hnow

/-! ## Overdue minutes -/

/-- The overdue minutes of a loan whose policy does not count closed time are the grace adjustment
of the length, in minutes, of the overdue stretch in which some recorded day is open. -/
theorem minutes_eq_length {records : List (ServicePoint × OpeningDay)} {sp : ServicePoint}
    {loan : Loan} {policy : FinePolicy} (hz : z.IsFixed offset)
    (hplain : ∀ d, (sp, d) ∈ records → d.IsPlain z) (hrecorded : ∃ d, (sp, d) ∈ records)
    (hsp : loan.primaryServicePoint = some sp) (hpolicy : policy.countClosed = some false)
    (hdue : ¬ loan.dueDate.IsLeapSecond) (hnow : ¬ now.IsLeapSecond)
    (hlate : loan.dueDate < now) :
    minutes (ofRecords records) loan policy now = .ok (afterGrace loan policy
      (length (stretch loan.dueDate now ∩ openMoments {d | Recorded records sp d}) /
        (60 * nanosPerSecond) : Nat)) := by
  obtain ⟨r, first, hr, hfirst, hzone, hdays⟩ := exists_register hrecorded
  have hrz : r.zone = z := hzone.trans (hplain first hfirst).zone_eq
  have hrplain : ∀ d ∈ r.days, d.IsPlain z := fun d hd => hplain d ((hdays d).mp hd).mem
  have hset : {d | Recorded records sp d} = {d | d ∈ r.days} := by
    ext d
    exact (hdays d).symm
  have helapsed : elapsedMinutes (ofRecords records) loan false now =
      .ok (length (stretch loan.dueDate now ∩ openMoments {d | d ∈ r.days}) /
        (60 * nanosPerSecond) : Nat) := by
    unfold elapsedMinutes daysBetween
    rw [hsp, ← stretch_inter_between hz hrz hrplain hdue]
    simp only [hr, Result.ok_bind]
    exact openMinutes_eq_length hz (fun d hd => hrplain d (mem_of_mem_between hd)) hdue hnow
  have hoverdue : loan.isOverdue now = true := by simpa [Loan.isOverdue] using hlate
  unfold minutes
  rw [hpolicy, hset]
  simp only [hoverdue, if_true, helapsed, Result.ok_bind]
  rfl

/-- A loan that falls due at half past midnight, an hour and a half before the night hours that
replaced a closed day come to their end. -/
def nightLoan : Loan :=
  .ofCheckout "loan" (.ofSecond 1772445600) (.ofSecond 1773070200) .zero

def nightRecords : List (ServicePoint × OpeningDay) :=
  let clock hour := (TimeOfDay.ofClock? hour 0 0 0).getD .midnight
  [(.zero, .closed ⟨20521⟩ Zone.tokyo),
    (.zero, .withHours ⟨20521⟩ Zone.tokyo [⟨clock 22, clock 2⟩])]

def nightPolicy : FinePolicy := ⟨"fine", some false, none, none⟩

theorem minutes_eq_length_night :
    Zone.tokyo.IsFixed 32400 ∧
    (∀ d, (.zero, d) ∈ nightRecords → d.IsPlain Zone.tokyo) ∧
    minutes (ofRecords nightRecords) nightLoan nightPolicy (.ofSecond 1773111600) =
      .ok 90 ∧
    minutes (ofRecords nightRecords) nightLoan nightPolicy (.ofSecond 1773111600) =
      .ok (afterGrace nightLoan nightPolicy
        (length (stretch nightLoan.dueDate (.ofSecond 1773111600) ∩
          openMoments {d | Recorded nightRecords .zero d}) /
            (60 * nanosPerSecond) : Nat)) := by
  have hplain : ∀ d, (.zero, d) ∈ nightRecords →
      d.IsPlain Zone.tokyo := by
    intro d hd
    rcases List.mem_cons.mp hd with heq | hd
    · obtain ⟨-, rfl⟩ := Prod.mk.inj heq
      exact ⟨rfl, by decide, by decide, by decide, by decide⟩
    · obtain ⟨-, rfl⟩ := Prod.mk.inj (List.mem_singleton.mp hd)
      exact ⟨rfl, by decide, by decide, by decide +kernel, by decide +kernel⟩
  refine ⟨Zone.tokyo_isFixed, hplain, by decide +kernel, ?_⟩
  exact minutes_eq_length Zone.tokyo_isFixed hplain ⟨_, List.mem_cons_self⟩ rfl rfl (by decide)
    (by decide)
    (by decide)

end Overdue

end Circulation
