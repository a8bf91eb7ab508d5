import Circulation.Proofs.DueDate.NearestWindow
import Circulation.Proofs.Overdue.ClosedTime

/-!
# Due at closing time

A loan that is moved back to a closing time owes nothing until the next opening. If the service
point closes at midnight the loan is due a second earlier, in open time, but a second is no
minute.
-/

namespace Circulation

open OpeningDay
open Calendar (Recorded daysBetween ofRecords)
open Strategy (dueAtClosing dueAtClosing_of_midnight)

/-! ## The closing time found -/

namespace Service

variable {z : Zone} {offset : Int} {sp : ServicePoint}
  {records : List (ServicePoint × OpeningDay)} {requested due : Instant}

/-- A date outside all recorded windows is moved back to the latest recorded closing time, if to
anywhere. -/
theorem exists_closing_of_run (hz : z.IsFixed offset) (hzone : ∀ d, (sp, d) ∈ records → d.zone = z)
    (hoverlap : NoOverlap {d | Recorded records sp d})
    (haway : ∀ a, (ofRecords records).adjacentDays sp (z.localDate requested) = .ok a →
      a.AwayFromEnds)
    (hclosed : requested ∉ openMoments {d | Recorded records sp d})
    (hdue : run ⟨ofRecords records, z⟩ .endOfPreviousOpenDay sp requested = .ok due) :
    ∃ closing, IsGreatest (Span.stopsBefore (windowsOf {d | Recorded records sp d}) requested)
      closing ∧ due = dueAtClosing z closing :=
  (movesBack_of_run hz hzone hoverlap haway hdue).exists_of_closed
    fun w hw hm => hclosed ⟨w, hw, hm⟩

end Service

namespace Overdue

variable {z : Zone} {offset : Int} {sp : ServicePoint} {records : List (ServicePoint × OpeningDay)}
  {loan : Loan} {policy : LoanPolicy} {fine : FinePolicy} {closing due now requested : Instant}

/-! ## The second before midnight -/

theorem nanos_dueAtClosing (z : Zone) (h : ¬ closing.IsLeapSecond) :
    ¬ (dueAtClosing z closing).IsLeapSecond ∧
      closing.nanos - nanosPerSecond ≤ (dueAtClosing z closing).nanos := by
  by_cases hmidnight : (z.toLocal closing).IsMidnight
  · rw [dueAtClosing_of_midnight hmidnight]
    refine ⟨h, ?_⟩
    simp only [Moment.nanos, nanosPerSecond]
    omega
  · rw [dueAtClosing, if_neg hmidnight]
    exact ⟨h, Int.sub_le_self _ (Int.natCast_nonneg _)⟩

/-- Where nothing is open after the closing time, what is open since the due date lies between the
two. -/
theorem length_dueAtClosing_le {opened : Set Instant} (h : ¬ closing.IsLeapSecond)
    (hclosed : stretch closing now ∩ opened = ∅) :
    length (stretch (dueAtClosing z closing) now ∩ opened) ≤ nanosPerSecond := by
  obtain ⟨hdue, hnanos⟩ := nanos_dueAtClosing z h
  have hsub : stretch (dueAtClosing z closing) now ∩ opened ⊆
      stretch (dueAtClosing z closing) closing := by
    rintro m ⟨hm, hopened⟩
    refine ⟨hm.1, lt_of_not_ge fun hle => ?_⟩
    have hmem : m ∈ stretch closing now ∩ opened := ⟨⟨hle, hm.2⟩, hopened⟩
    rw [hclosed] at hmem
    exact hmem
  have hlength := length_mono hsub (finite_ordinary_stretch hdue h)
  rw [length_stretch hdue h] at hlength
  omega

/-! ## Less than a minute -/

theorem afterGrace_zero : afterGrace loan fine 0 = 0 :=
  (afterGrace_le le_rfl).antisymm (afterGrace_nonneg le_rfl)

/-- Less than a minute of recorded open time is no overdue time. -/
theorem minutes_eq_zero (hz : z.IsFixed offset) (hplain : ∀ d, (sp, d) ∈ records → d.IsPlain z)
    (hrecorded : ∃ d, (sp, d) ∈ records) (hsp : loan.primaryServicePoint = some sp)
    (hfine : fine.countClosed = some false) (hdue : ¬ loan.dueDate.IsLeapSecond)
    (hnow : ¬ now.IsLeapSecond)
    (hlength : length (stretch loan.dueDate now ∩ openMoments {d | Recorded records sp d}) <
      60 * nanosPerSecond) :
    minutes (ofRecords records) loan fine now = .ok 0 := by
  obtain ⟨r, -, hr, -, -, hdays⟩ := Calendar.exists_register hrecorded
  let days := r.between (r.zone.localDate (dayBefore loan.dueDate)) (r.zone.localDate now) false
  have hlooked : ∀ d ∈ days, Recorded records sp d :=
    fun d hd => (hdays d).mp (mem_of_mem_between hd)
  have hcountable : Countable days :=
    countable_of_plain hz fun d hd => hplain d (hlooked d hd).mem
  have hless : length (stretch loan.dueDate now ∩ openMoments {d | d ∈ days}) <
      60 * nanosPerSecond :=
    (length_mono (Set.inter_subset_inter_right _ (openMoments_mono hlooked))
      (finite_ordinary_inter hdue hnow _)).trans_lt hlength
  have helapsed : elapsedMinutes (ofRecords records) loan false now = .ok 0 := by
    unfold elapsedMinutes daysBetween
    rw [hsp]
    simp only [hr, Result.ok_bind]
    show openMinutes days loan.dueDate now = .ok 0
    rw [hcountable.openMinutes_eq hdue hnow, Nat.div_eq_of_lt hless]
    rfl
  unfold minutes
  rw [hfine]
  simp only [helapsed, Result.ok_bind, afterGrace_zero]
  exact ite_self _

/-! ## Moved to the previous closing -/

/-- A loan that a policy of the previous closing moves to the latest recorded closing time owes
nothing while no recorded hours have begun since. -/
theorem minutes_sinceClosing (hz : z.IsFixed offset)
    (hplain : ∀ d, (sp, d) ∈ records → d.IsPlain z)
    (hoverlap : NoOverlap {d | Recorded records sp d})
    (haway : ∀ a, (ofRecords records).adjacentDays sp (z.localDate requested) = .ok a →
      a.AwayFromEnds)
    (hcheckout : loan.checkoutServicePoint = sp) (hprimary : loan.primaryServicePoint = some sp)
    (hprofile : policy.profile = .rolling) (hmanagement : policy.management = .endOfPreviousOpenDay)
    (hlimit : policy.limit = none)
    (hclosed : requested ∉ openMoments {d | Recorded records sp d})
    (hdue : Service.managedDueDate ⟨ofRecords records, z⟩ loan policy requested now = .ok due) :
    ∃ closing, IsGreatest (Span.stopsBefore (windowsOf {d | Recorded records sp d}) requested)
        closing ∧
      ∀ (recalled : Bool) (fine : FinePolicy) (later : Instant), fine.countClosed = some false →
        ¬ later.IsLeapSecond →
        stretch closing later ∩ openMoments {d | Recorded records sp d} = ∅ →
        minutes (ofRecords records) { loan with dueDate := due, recalled := recalled } fine later =
          .ok 0 := by
  rw [Service.managedDueDate_of_noLimit hlimit, Strategy.ofPolicy, hprofile, hmanagement,
    hcheckout] at hdue
  obtain ⟨closing, hgreatest, rfl⟩ := Service.exists_closing_of_run hz
    (fun d hd => (hplain d hd).zone_eq) hoverlap haway hclosed hdue
  obtain ⟨-, w, ⟨d, hd, hw⟩, hstop⟩ := hgreatest.1
  have hleap : ¬ closing.IsLeapSecond := hstop ▸ ((hplain d hd.mem).noLeap.span_not_leap hw).2
  refine ⟨closing, hgreatest, fun recalled fine later hfine hlater hempty => ?_⟩
  refine minutes_eq_zero hz hplain ⟨d, hd.mem⟩ hprimary hfine (nanos_dueAtClosing z hleap).1 hlater
    ?_
  refine (length_dueAtClosing_le hleap hempty).trans_lt ?_
  decide

/-- Hours on 9 March 2026 that close at midnight. -/
def eveningHours : OpeningDay :=
  let clock hour minute := (TimeOfDay.ofClock? hour minute 0 0).getD .midnight
  .withHours ⟨20521⟩ Zone.tokyo [⟨clock 20 0, clock 23 59⟩]

def eveningAndDay : List (ServicePoint × OpeningDay) := [(.zero, eveningHours), (.zero, dayHours)]

/-- Moved back from the next noon, a loan is due a second before midnight. It owes nothing when the
service point opens again a day and nine hours later. -/
theorem minutes_sinceClosing_midnight :
    let week := LoanPolicy.rolling "week" ⟨1, .weeks⟩ .endOfPreviousOpenDay
    let loan := Service.noonLoan
    Zone.tokyo.IsFixed 32400 ∧
    (∀ d, (.zero, d) ∈ eveningAndDay → d.IsPlain Zone.tokyo) ∧
    NoOverlap {d | Recorded eveningAndDay .zero d} ∧
    loan.dueDate ∉ openMoments {d | Recorded eveningAndDay .zero d} ∧
    Service.managedDueDate ⟨ofRecords eveningAndDay, Zone.tokyo⟩ loan week loan.dueDate
      loan.loanDate = .ok (.ofSecond 1773068399) ∧
    minutes (ofRecords eveningAndDay) { loan with dueDate := .ofSecond 1773068399, recalled := true }
      nightPolicy (.ofSecond 1773187200) = .ok 0 := by
  intro week loan
  have hrecorded : {d | Recorded eveningAndDay .zero d} = {d | d ∈ [eveningHours, dayHours]} := by
    ext d
    show Recorded eveningAndDay .zero d ↔ _
    rw [Calendar.recorded_iff_mem (by decide)]
    simp [eveningAndDay]
  have hplain : ∀ d, (.zero, d) ∈ eveningAndDay → d.IsPlain Zone.tokyo := by
    intro d hd
    rcases List.mem_pair.mp hd with heq | heq
    · obtain ⟨-, rfl⟩ := Prod.mk.inj heq
      exact ⟨rfl, by decide, by decide, by with_unfolding_all decide, by with_unfolding_all decide⟩
    · obtain ⟨-, rfl⟩ := Prod.mk.inj heq
      exact ⟨rfl, by decide, by decide, by with_unfolding_all decide, by with_unfolding_all decide⟩
  have hoverlap : NoOverlap {d | Recorded eveningAndDay .zero d} := by
    refine noOverlap_of_gaps Zone.tokyo_isFixed (fun d hd => (hplain d hd.mem).isInner) ?_
    rw [hrecorded]
    rintro d hd e he - - hlt
    rcases List.mem_pair.mp hd with rfl | rfl <;> rcases List.mem_pair.mp he with rfl | rfl <;>
      revert hlt <;> decide
  have hspans : eveningHours.openSpans =
      .ok [⟨.ofSecond 1773054000, .ofSecond 1773068400⟩] := by with_unfolding_all decide
  have hopen : Timetable.openTime [eveningHours, dayHours] = .ok
      [⟨.ofSecond 1773054000, .ofSecond 1773068400⟩,
        ⟨.ofSecond 1773187200, .ofSecond 1773216000⟩] := by cbv
  have hmoments : ∀ m, m ∈ openMoments {d | Recorded eveningAndDay .zero d} →
      m < .ofSecond 1773068400 ∨ .ofSecond 1773187200 ≤ m := by
    intro m hm
    rw [hrecorded, ← Timetable.union_of_openTime hopen] at hm
    obtain ⟨w, hw, hmw⟩ := hm
    rcases List.mem_pair.mp hw with rfl | rfl
    · exact .inl hmw.2
    · exact .inr hmw.1
  have hclosed : loan.dueDate ∉ openMoments {d | Recorded eveningAndDay .zero d} :=
    fun hm => absurd (hmoments _ hm) (by decide)
  have hdue : Service.managedDueDate ⟨ofRecords eveningAndDay, Zone.tokyo⟩ loan week loan.dueDate
      loan.loanDate = .ok (.ofSecond 1773068399) := by cbv
  have hends : ((ofRecords eveningAndDay).adjacentDays .zero
      (Zone.tokyo.localDate loan.dueDate)).map (fun a => (a.previous.date, a.next.date)) =
        .ok (⟨20521⟩, ⟨20523⟩) := by with_unfolding_all decide
  obtain ⟨closing, hgreatest, hzero⟩ := minutes_sinceClosing Zone.tokyo_isFixed hplain hoverlap
    (fun a => AdjacentDays.awayFromEnds_of_dates hends (by decide) (by decide)) rfl rfl rfl rfl rfl
    hclosed hdue
  have hle : .ofSecond 1773068400 ≤ closing := by
    refine hgreatest.2 ⟨by decide, _, ⟨eveningHours, ?_, _, hspans, List.mem_cons_self⟩, rfl⟩
    rw [hrecorded]
    exact List.mem_cons_self
  refine ⟨Zone.tokyo_isFixed, hplain, hoverlap, hclosed, hdue,
    hzero true nightPolicy _ rfl (by decide) ?_⟩
  refine Set.eq_empty_iff_forall_notMem.mpr fun m hm => ?_
  rcases hmoments m hm.2 with hlt | hge
  · exact absurd (hle.trans hm.1.1) hlt.not_ge
  · exact absurd hm.1.2 hge.not_gt

end Overdue

end Circulation
