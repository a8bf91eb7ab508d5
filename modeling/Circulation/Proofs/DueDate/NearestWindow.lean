import Circulation.Proofs.Calendar.Records
import Circulation.Proofs.DueDate.Around
import Circulation.Zone.Named
import Mathlib

/-!
# Moves to the nearest window

In a zone of one offset the days around a requested date are enough to move it to the next opening,
and to the previous closing as well if the windows of different dates do not overlap: the opening
and the closing found there are the nearest among all recorded days.
-/

namespace Circulation

open OpeningDay
open Calendar (Recorded exists_register ofRecords)

/-! ## Moves back that succeed -/

/-- What a move to the previous closing of some windows makes of a requested instant, if it finds
one. -/
def MovesBack (z : Zone) (windows : Set (Span .utc)) (requested due : Instant) : Prop :=
  MovesTo windows requested (Span.stopsBefore windows requested) IsGreatest
    (Strategy.dueAtClosing z) (.ok due)

namespace MovesBack

variable {z : Zone} {windows : Set (Span .utc)} {requested due : Instant}

theorem eq_of_open (h : MovesBack z windows requested due)
    (hopen : ∃ w ∈ windows, requested ∈ w) : due = requested :=
  Except.ok.inj (h.stays hopen)

theorem exists_of_closed (h : MovesBack z windows requested due)
    (hclosed : ∀ w ∈ windows, requested ∉ w) :
    ∃ closing, IsGreatest (Span.stopsBefore windows requested) closing ∧
      due = Strategy.dueAtClosing z closing := by
  rcases Set.eq_empty_or_nonempty (Span.stopsBefore windows requested) with hnone | hne
  · cases h.fails hclosed hnone
  · obtain ⟨closing, hgreatest, hdue⟩ := h.moves hclosed hne
    exact ⟨closing, hgreatest, Except.ok.inj hdue⟩

end MovesBack

namespace Service

variable {s : Service} {sp : ServicePoint} {r : Register} {z : Zone} {offset : Int} {loan : Loan}
  {policy : LoanPolicy} {requested now : Instant}

/-! ## Runs without a limit -/

theorem managedDueDate_of_noLimit (h : policy.limit = none) :
    s.managedDueDate loan policy requested now =
      s.run (Strategy.ofPolicy policy now s.zone) loan.checkoutServicePoint requested := by
  unfold managedDueDate manage
  rw [h]
  show Except.map _ (s.run (Strategy.ofPolicy policy now s.zone) _ requested >>= _) = _
  cases hrun : s.run (Strategy.ofPolicy policy now s.zone) loan.checkoutServicePoint requested with
  | error e => rfl
  | ok candidate => cases policy.isFixed <;> rfl

theorem run_eq {strategy : Strategy} {days : List OpeningDay} {t : Timetable}
    (hneeds : strategy.requiresCalendar = true)
    (hdays : s.daysAround sp (s.datesOfInterest strategy requested) = .ok days)
    (ht : Timetable.ofDays days s.zone = .ok t) :
    s.run strategy sp requested = strategy.dueDate t requested := by
  unfold run timetable
  rw [hneeds, if_pos rfl, hdays, Result.ok_bind, ht, Result.ok_bind]

/-! ## The register -/

theorem run_movesToNextOpening (hz : s.zone.IsFixed offset)
    (hr : s.calendar.register sp = .ok r) (hzone : r.zone = s.zone)
    (hdays : ∀ d ∈ r.days, d.zone = s.zone)
    (haway : (r.adjacent (s.zone.localDate requested)).AwayFromEnds) :
    MovesTo (windowsOf {d | d ∈ r.days}) requested
      (Span.startsAfter (windowsOf {d | d ∈ r.days}) requested) IsLeast id
      (s.run (.beginningOfNextOpenHours none) sp requested) := by
  have hmem : s.zone.localDate requested ∈ [s.zone.localDate requested] := List.mem_cons_self
  obtain ⟨days, t, haround, hsees⟩ := exists_sees hz hr hzone hdays
    (List.forall_mem_singleton.mpr haway)
  have hahead := hsees.ahead requested hmem
  have hmoves := Strategy.beginningOfNextOpenHours_movesTo hsees.ofDays
    (Timetable.upright_of_inner hz hsees.inner) (hsees.held requested hmem)
  rw [run_eq rfl haround hsees.ofDays]
  refine hmoves.extend (hahead.exists_mem_iff hz) ?_ ?_ ?_
  · exact fun _ x hx => hahead.isLeast_startsAfter hz hx
  · rintro x ⟨hx, w, hw, rfl⟩
    exact ⟨hx, w, hahead.subset w hw, rfl⟩
  · exact fun _ hne => hahead.startsAfter_nonempty hz hne

theorem run_movesToPreviousClosing (hz : s.zone.IsFixed offset)
    (hr : s.calendar.register sp = .ok r) (hzone : r.zone = s.zone)
    (hdays : ∀ d ∈ r.days, d.zone = s.zone)
    (haway : (r.adjacent (s.zone.localDate requested)).AwayFromEnds)
    (hoverlap : NoOverlap {d | d ∈ r.days}) :
    MovesTo (windowsOf {d | d ∈ r.days}) requested
      (Span.stopsBefore (windowsOf {d | d ∈ r.days}) requested) IsGreatest
      (Strategy.dueAtClosing s.zone) (s.run .endOfPreviousOpenDay sp requested) := by
  have hmem : s.zone.localDate requested ∈ [s.zone.localDate requested] := List.mem_cons_self
  obtain ⟨days, t, haround, hsees⟩ := exists_sees hz hr hzone hdays
    (List.forall_mem_singleton.mpr haway)
  have hahead := hsees.ahead requested hmem
  have hmoves := Strategy.endOfPreviousOpenDay_movesTo hsees.ofDays
    (Timetable.upright_of_inner hz hsees.inner) (hsees.held requested hmem)
  have hlatest : (∀ w ∈ windowsOf {d | d ∈ r.days}, requested ∉ w) →
      ∀ w ∈ windowsOf {d | d ∈ r.days}, w.stop ≤ requested →
        ∃ v ∈ windowsOf {d | d ∈ days}, v.stop ≤ requested ∧ w.stop ≤ v.stop := by
    intro hclosed w hw hle
    obtain ⟨v, hv, hstop⟩ := Register.exists_stop_ge hz hzone hdays haway hoverlap hclosed hw hle
    exact ⟨v, (hsees.near v).mpr ⟨_, hmem, hv⟩, hstop⟩
  have hsub : Span.stopsBefore (windowsOf {d | d ∈ days}) requested ⊆
      Span.stopsBefore (windowsOf {d | d ∈ r.days}) requested := by
    rintro x ⟨hx, w, hw, rfl⟩
    exact ⟨hx, w, hahead.subset w hw, rfl⟩
  rw [run_eq rfl haround hsees.ofDays]
  refine hmoves.extend (hahead.exists_mem_iff hz) (fun hclosed x hx => ?_) hsub ?_
  · refine ⟨hsub hx.1, ?_⟩
    rintro y ⟨hy, w, hw, rfl⟩
    obtain ⟨v, hv, hle, hwv⟩ := hlatest hclosed w hw hy
    exact hwv.trans (hx.2 ⟨hle, v, hv, rfl⟩)
  · rintro hclosed ⟨y, hy, w, hw, rfl⟩
    obtain ⟨v, hv, hle, -⟩ := hlatest hclosed w hw hy
    exact ⟨v.stop, hle, v, hv, rfl⟩

theorem exists_register_of_run {due : Instant}
    (h : s.run .endOfPreviousOpenDay sp requested = .ok due) :
    ∃ r, s.calendar.register sp = .ok r := by
  have hdate : s.zone.localDate requested ∈ s.datesOfInterest .endOfPreviousOpenDay requested :=
    List.mem_cons_self
  have hneeds : Strategy.endOfPreviousOpenDay.requiresCalendar = true := rfl
  unfold run timetable daysAround at h
  simp only [hneeds, if_true, Result.bind_eq_ok_iff, Result.pure_eq_ok_iff] at h
  obtain ⟨t, ⟨days, ⟨adjacent, hadjacent, -⟩, -⟩, -⟩ := h
  obtain ⟨a, -, ha⟩ := Result.exists_of_mapM_eq_ok hadjacent hdate
  obtain ⟨r, hr, -⟩ := Result.bind_eq_ok_iff.mp ha
  exact ⟨r, hr⟩

/-! ## Calendars of records -/

variable {records : List (ServicePoint × OpeningDay)}

/-- A service point of recorded days has a register of just these days, all in the zone. -/
theorem exists_register_of_zone (hdays : ∀ d, (sp, d) ∈ records → d.zone = z)
    (hrecorded : ∃ d, (sp, d) ∈ records) :
    ∃ r, (ofRecords records).register sp = .ok r ∧ r.zone = z ∧ (∀ d ∈ r.days, d.zone = z) ∧
      {d | Recorded records sp d} = {d | d ∈ r.days} := by
  obtain ⟨r, first, hr, hfirst, hzone, hmem⟩ := exists_register hrecorded
  refine ⟨r, hr, hzone.trans (hdays first hfirst), fun d hd => ?_, ?_⟩
  · exact hdays d ((hmem d).mp hd).mem
  · ext d
    exact (hmem d).symm

/-- Among recorded days, an instant that is moved back at all is moved to the previous closing. -/
theorem movesBack_of_run {due : Instant} (hz : z.IsFixed offset)
    (hzone : ∀ d, (sp, d) ∈ records → d.zone = z)
    (hoverlap : NoOverlap {d | Recorded records sp d})
    (haway : ∀ a, (ofRecords records).adjacentDays sp (z.localDate requested) = .ok a →
      a.AwayFromEnds)
    (hrun : run ⟨ofRecords records, z⟩ .endOfPreviousOpenDay sp requested = .ok due) :
    MovesBack z (windowsOf {d | Recorded records sp d}) requested due := by
  obtain ⟨r, hr⟩ := exists_register_of_run hrun
  obtain ⟨r, hr, hrzone, hrdays, hset⟩ :=
    exists_register_of_zone hzone (Calendar.exists_mem_of_register hr)
  have hmoves := run_movesToPreviousClosing (s := ⟨ofRecords records, z⟩) hz hr hrzone hrdays
    (haway _ (Calendar.adjacentDays_eq hr _)) (hset ▸ hoverlap)
  rwa [hrun, ← hset] at hmoves

/-- A policy of the next opening without offset and limit makes loans due at the earliest start of a
window of any recorded day, unless the requested date lies in a window. -/
theorem managedDueDate_movesToNextOpening (hz : z.IsFixed offset)
    (hdays : ∀ d, (sp, d) ∈ records → d.zone = z) (hrecorded : ∃ d, (sp, d) ∈ records)
    (haway : ∀ a, (ofRecords records).adjacentDays sp (z.localDate requested) = .ok a →
      a.AwayFromEnds)
    (hsp : loan.checkoutServicePoint = sp) (hprofile : policy.profile = .rolling)
    (hmanagement : policy.management = .beginningOfNextOpenHours)
    (hoffset : policy.openingOffset = none) (hlimit : policy.limit = none) :
    MovesTo (windowsOf {d | Recorded records sp d}) requested
      (Span.startsAfter (windowsOf {d | Recorded records sp d}) requested) IsLeast id
      (managedDueDate ⟨ofRecords records, z⟩ loan policy requested now) := by
  obtain ⟨r, hr, hrzone, hrdays, hset⟩ := exists_register_of_zone hdays hrecorded
  rw [managedDueDate_of_noLimit hlimit, Strategy.ofPolicy, hprofile, hmanagement, hoffset, hset,
    hsp]
  exact run_movesToNextOpening (s := ⟨ofRecords records, z⟩) hz hr hrzone hrdays
    (haway _ (Calendar.adjacentDays_eq hr _))

/-- The night hours and the day hours with a closed day between them. -/
def nightAndDay : List (ServicePoint × OpeningDay) :=
  [(.zero, dayHours), (.zero, nightHours), (.zero, .closed ⟨20522⟩ Zone.tokyo)]

/-- A loan that falls due at noon of the closed day. -/
def noonLoan : Loan := .ofCheckout "loan" (.ofSecond 1772506800) (.ofSecond 1773111600) .zero

theorem mem_nightAndDay {d : OpeningDay} (h : (.zero, d) ∈ nightAndDay) :
    d = dayHours ∨ d = nightHours ∨ d = .closed ⟨20522⟩ Zone.tokyo := by
  simpa [nightAndDay] using h

theorem isInner_of_mem_nightAndDay {d : OpeningDay} (h : (.zero, d) ∈ nightAndDay) :
    d.IsInner Zone.tokyo := by
  rcases mem_nightAndDay h with rfl | rfl | rfl <;> exact ⟨rfl, by decide, by decide⟩

/-- The night hours end before the day hours begin, and no window is a day apart from another. -/
theorem noOverlap_nightAndDay : NoOverlap {d | Recorded nightAndDay .zero d} := by
  refine noOverlap_of_gaps Zone.tokyo_isFixed (fun d hd => isInner_of_mem_nightAndDay hd.mem)
    fun d hd e he hdopen heopen hlt => ?_
  rcases mem_nightAndDay hd.mem with rfl | rfl | rfl <;>
    rcases mem_nightAndDay he.mem with rfl | rfl | rfl <;>
    revert hdopen heopen hlt <;> decide +kernel

theorem nightAndDay_awayFromEnds {a : AdjacentDays}
    (h : (ofRecords nightAndDay).adjacentDays .zero (Zone.tokyo.localDate noonLoan.dueDate) =
      .ok a) : a.AwayFromEnds := by
  have hends : ((ofRecords nightAndDay).adjacentDays .zero
      (Zone.tokyo.localDate noonLoan.dueDate)).map (fun a => (a.previous.date, a.next.date)) =
        .ok (⟨20521⟩, ⟨20523⟩) := by with_unfolding_all decide
  exact AdjacentDays.awayFromEnds_of_dates hends (by decide) (by decide) h

theorem managedDueDate_movesToNextOpening_morning :
    let week := LoanPolicy.rolling "week" ⟨1, .weeks⟩ .beginningOfNextOpenHours
    let windows := windowsOf {d | Recorded nightAndDay .zero d}
    Zone.tokyo.IsFixed 32400 ∧
    managedDueDate ⟨ofRecords nightAndDay, Zone.tokyo⟩ noonLoan week noonLoan.dueDate
      noonLoan.loanDate = .ok (.ofSecond 1773187200) ∧
    MovesTo windows noonLoan.dueDate (Span.startsAfter windows noonLoan.dueDate) IsLeast id
      (managedDueDate ⟨ofRecords nightAndDay, Zone.tokyo⟩ noonLoan week noonLoan.dueDate
        noonLoan.loanDate) := by
  refine ⟨Zone.tokyo_isFixed, by cbv, ?_⟩
  exact managedDueDate_movesToNextOpening Zone.tokyo_isFixed
    (fun d hd => (isInner_of_mem_nightAndDay hd).zone_eq) ⟨_, List.mem_cons_self⟩
    (fun a => nightAndDay_awayFromEnds) rfl rfl rfl rfl rfl

/-- A policy of the previous closing without limit makes loans due at the latest stop of a window of
any recorded day, unless the requested date lies in a window. -/
theorem managedDueDate_movesToPreviousClosing (hz : z.IsFixed offset)
    (hdays : ∀ d, (sp, d) ∈ records → d.zone = z) (hrecorded : ∃ d, (sp, d) ∈ records)
    (hoverlap : NoOverlap {d | Recorded records sp d})
    (haway : ∀ a, (ofRecords records).adjacentDays sp (z.localDate requested) = .ok a →
      a.AwayFromEnds)
    (hsp : loan.checkoutServicePoint = sp) (hprofile : policy.profile = .rolling)
    (hmanagement : policy.management = .endOfPreviousOpenDay) (hlimit : policy.limit = none) :
    MovesTo (windowsOf {d | Recorded records sp d}) requested
      (Span.stopsBefore (windowsOf {d | Recorded records sp d}) requested) IsGreatest
      (Strategy.dueAtClosing z)
      (managedDueDate ⟨ofRecords records, z⟩ loan policy requested now) := by
  obtain ⟨r, hr, hrzone, hrdays, hset⟩ := exists_register_of_zone hdays hrecorded
  rw [hset] at hoverlap ⊢
  rw [managedDueDate_of_noLimit hlimit, Strategy.ofPolicy, hprofile, hmanagement, hsp]
  exact run_movesToPreviousClosing (s := ⟨ofRecords records, z⟩) hz hr hrzone hrdays
    (haway _ (Calendar.adjacentDays_eq hr _)) hoverlap

theorem managedDueDate_movesToPreviousClosing_night :
    let week := LoanPolicy.rolling "week" ⟨1, .weeks⟩ .endOfPreviousOpenDay
    let windows := windowsOf {d | Recorded nightAndDay .zero d}
    Zone.tokyo.IsFixed 32400 ∧ NoOverlap {d | Recorded nightAndDay .zero d} ∧
    managedDueDate ⟨ofRecords nightAndDay, Zone.tokyo⟩ noonLoan week noonLoan.dueDate
      noonLoan.loanDate = .ok (.ofSecond 1773075600) ∧
    MovesTo windows noonLoan.dueDate (Span.stopsBefore windows noonLoan.dueDate) IsGreatest
      (Strategy.dueAtClosing Zone.tokyo)
      (managedDueDate ⟨ofRecords nightAndDay, Zone.tokyo⟩ noonLoan week noonLoan.dueDate
        noonLoan.loanDate) := by
  refine ⟨Zone.tokyo_isFixed, noOverlap_nightAndDay, by cbv, ?_⟩
  exact managedDueDate_movesToPreviousClosing Zone.tokyo_isFixed
    (fun d hd => (isInner_of_mem_nightAndDay hd).zone_eq) ⟨_, List.mem_cons_self⟩
    noOverlap_nightAndDay (fun a => nightAndDay_awayFromEnds) rfl rfl rfl rfl

end Service

end Circulation
