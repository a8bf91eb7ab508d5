import Circulation.Proofs.DueDate.NearestWindow

/-!
# Service points in another zone

A service looks up the days around a date of its own zone, while the days of a service point are
recorded in the service point's zone. In two zones of one offset each this is enough to find the
next open time unless the service point's clock is ahead: then the next open day of the calendar can
be over already, and the open days that follow it are not looked up.
-/

namespace Circulation

open OpeningDay
open Calendar (Recorded ofRecords)

/-! ## Dates that are over -/

/-- Windows open after the date, and all that open up to the date of one of them are over by the
instant. -/
def OverAfter (z : Zone) (windows : Set (Span .utc)) (date : Date) (m : Instant) : Prop :=
  ∃ w ∈ windows, date < z.localDate w.start ∧
    ∀ v ∈ windows, z.localDate v.start ≤ z.localDate w.start → v.stop ≤ m

namespace Surrounds

variable {z : Zone} {offset : Int} {date : Date} {m : Instant} {near all : Set (Span .utc)}
  {w : Span .utc}

theorem stop_le (h : Surrounds z date near all) (hover : OverAfter z all date m) :
    ∀ v ∈ near, v.stop ≤ m := by
  obtain ⟨w, hw, hdate, hover⟩ := hover
  intro v hv
  refine hover v (h.subset v hv) ?_
  rcases le_or_gt (z.localDate v.start) date with hle | hgt
  · exact hle.trans hdate.le
  · exact h.next v hv hgt w hw hdate

/-- Where a window is still to start, some near window stops later, unless the near ones that open
after the date are over and hide the windows of later dates. -/
theorem exists_stop_gt (h : Surrounds z date near all) (hz : z.IsFixed offset)
    (hup : ∀ v ∈ near, v.start < v.stop) (hw : w ∈ all) (hm : m < w.start)
    (hover : ¬ OverAfter z all date m) : ∃ v ∈ near, m < v.stop := by
  by_contra hnone
  have hstop : ∀ v ∈ near, v.stop ≤ m := fun v hv =>
    le_of_not_gt fun hlt => hnone ⟨v, hv, hlt⟩
  rcases h.others w hw with hnear | ⟨v, hv, -, hstart, -⟩ | ⟨v, hv, hdate, -⟩
  · exact (hm.trans (hup w hnear)).not_ge (hstop w hnear)
  · -- An older window cannot start after the instant, since the near one that opens later is over.
    have hwv : w.start < v.start := hz.lt_of_localDate_lt hstart
    exact (hm.trans (hwv.trans (hup v hv))).not_ge (hstop v hv)
  · -- `v` hides a later window, since what opens up to its date is near or older still.
    refine hover ⟨v, h.subset v hv, hdate, fun u hu hle => ?_⟩
    rcases h.others u hu with hnear | ⟨x, -, hx, -, hux⟩ | ⟨x, hx, hxdate, hlater⟩
    · exact hstop u hnear
    · have huv : u.stop < v.start := hz.lt_of_localDate_lt (hux.trans_lt (hx.trans hdate))
      exact (huv.trans (hup v hv)).le.trans (hstop v hv)
    · exact absurd (h.next v hv hdate x (h.subset x hx) hxdate) (hlater.trans_le hle).not_ge

/-- Nothing is over after the date of the instant itself or a later one. -/
theorem not_overAfter (h : Surrounds z date near all) (hz : z.IsFixed offset)
    (hup : ∀ v ∈ near, v.start < v.stop) (hm : z.localDate m ≤ date) :
    ¬ OverAfter z all date m := by
  intro hover
  have hstop := h.stop_le hover
  obtain ⟨w, hw, hdate, -⟩ := hover
  obtain ⟨v, hv, hvdate⟩ : ∃ v ∈ near, date < z.localDate v.start := by
    rcases h.others w hw with hnear | ⟨v, -, hv, hstart, -⟩ | ⟨v, hv, hvdate, -⟩
    · exact ⟨w, hnear, hdate⟩
    · exact absurd (hstart.trans hv) hdate.not_gt
    · exact ⟨v, hv, hvdate⟩
  have hmv : m < v.start := hz.lt_of_localDate_lt (hm.trans_lt hvdate)
  exact (hmv.trans (hup v hv)).not_ge (hstop v hv)

end Surrounds

theorem Strategy.ofPolicy_nextOpenTime {policy : LoanPolicy} {now : Instant} {z : Zone}
    (hprofile : policy.profile = .rolling)
    (hmanagement : policy.management = .endOfNextOpenDay ∨
      policy.management = .beginningOfNextOpenHours ∧ policy.openingOffset = none) :
    ofPolicy policy now z = .endOfNextOpenDay ∨
      ofPolicy policy now z = .beginningOfNextOpenHours none := by
  unfold ofPolicy
  rcases hmanagement with hmanagement | ⟨hmanagement, hoffset⟩
  · exact .inl (by rw [hprofile, hmanagement])
  · exact .inr (by rw [hprofile, hmanagement, hoffset])

namespace Service

variable {s : Service} {sp : ServicePoint} {r : Register} {z tenant : Zone} {offset shift : Int}
  {loan : Loan} {policy : LoanPolicy} {requested now : Instant}
  {records : List (ServicePoint × OpeningDay)}

/-! ## The next open time -/

/-- The next open time is sought in the windows of the adjacent days, whatever the zone in which
they are recorded. -/
theorem run_nextOpenTime {strategy : Strategy}
    (hstrategy : strategy = .endOfNextOpenDay ∨ strategy = .beginningOfNextOpenHours none)
    (hz : z.IsFixed offset) (hs : s.zone.IsFixed shift) (hr : s.calendar.register sp = .ok r)
    (hzone : r.zone = z) (hdays : ∀ d ∈ r.days, d.zone = z)
    (haway : (r.adjacent (s.zone.localDate requested)).AwayFromEnds) :
    let near := windowsOf {d | d ∈ (r.adjacent (s.zone.localDate requested)).days}
    ((∃ w ∈ near, requested < w.stop) → ∃ due, s.run strategy sp requested = .ok due) ∧
    ((∀ w ∈ near, w.stop ≤ requested) →
      s.run strategy sp requested = .error (.openPeriodsNotFound requested)) := by
  intro near
  obtain ⟨days, t, haround, hshows⟩ := exists_shows hz hs hr hzone hdays
    (List.forall_mem_singleton.mpr haway)
  have hnear : windowsOf {d | d ∈ days} = near := by
    ext w
    rw [hshows.near]
    simp [near]
  have hdates : s.datesOfInterest strategy requested = [s.zone.localDate requested] := by
    rcases hstrategy with rfl | rfl <;> rfl
  have hcalendar : strategy.requiresCalendar = true := by
    rcases hstrategy with rfl | rfl <;> rfl
  rw [run_eq hcalendar (hdates ▸ haround) hshows.ofDays, ← hnear]
  have hheld := hshows.held requested List.mem_cons_self
  exact Strategy.dueDate_nextOpenTime hshows.ofDays (Timetable.upright_of_inner hz hshows.inner)
    hheld hstrategy

/-- Where a window of the register is still to start, the next open time is found unless the open
days looked up are over. That takes a service point whose date is later than the service's. -/
theorem run_laterWindow {strategy : Strategy}
    (hstrategy : strategy = .endOfNextOpenDay ∨ strategy = .beginningOfNextOpenHours none)
    (hz : z.IsFixed offset) (hs : s.zone.IsFixed shift) (hr : s.calendar.register sp = .ok r)
    (hzone : r.zone = z) (hdays : ∀ d ∈ r.days, d.zone = z)
    (haway : (r.adjacent (s.zone.localDate requested)).AwayFromEnds)
    (hlater : ∃ w ∈ windowsOf {d | d ∈ r.days}, requested < w.start) :
    let windows := windowsOf {d | d ∈ r.days}
    (¬ OverAfter z windows (s.zone.localDate requested) requested →
      ∃ due, s.run strategy sp requested = .ok due) ∧
    (OverAfter z windows (s.zone.localDate requested) requested →
      s.run strategy sp requested = .error (.openPeriodsNotFound requested)) ∧
    (z.localDate requested ≤ s.zone.localDate requested →
      ∃ due, s.run strategy sp requested = .ok due) := by
  intro windows
  obtain ⟨w, hw, hstart⟩ := hlater
  have hsurrounds := Register.surrounds_adjacent hz hzone hdays haway
  have hup : ∀ v ∈ windowsOf {d | d ∈ (r.adjacent (s.zone.localDate requested)).days},
      v.start < v.stop :=
    Timetable.upright_of_inner hz fun d hd =>
      Register.isInner_of_mem_adjacent hzone hdays haway hd
  obtain ⟨hfinds, hmisses⟩ := run_nextOpenTime hstrategy hz hs hr hzone hdays haway
  have hfound : ¬ OverAfter z windows (s.zone.localDate requested) requested →
      ∃ due, s.run strategy sp requested = .ok due :=
    fun hover => hfinds (hsurrounds.exists_stop_gt hz hup hw hstart hover)
  exact ⟨hfound, fun hover => hmisses (hsurrounds.stop_le hover),
    fun hdate => hfound (hsurrounds.not_overAfter hz hup hdate)⟩

/-- Where a recorded window is still to start, a policy of the next open time makes loans due unless
the open days looked up are over. That takes a service point whose date is later than the
tenant's. -/
theorem managedDueDate_nextOpenTime (hz : z.IsFixed offset) (htenant : tenant.IsFixed shift)
    (hdays : ∀ d, (sp, d) ∈ records → d.zone = z)
    (haway : ∀ a, (ofRecords records).adjacentDays sp (tenant.localDate requested) = .ok a →
      a.AwayFromEnds)
    (hsp : loan.checkoutServicePoint = sp) (hprofile : policy.profile = .rolling)
    (hmanagement : policy.management = .endOfNextOpenDay ∨
      policy.management = .beginningOfNextOpenHours ∧ policy.openingOffset = none)
    (hlimit : policy.limit = none)
    (hlater : ∃ w ∈ windowsOf {d | Recorded records sp d}, requested < w.start) :
    let windows := windowsOf {d | Recorded records sp d}
    let result := managedDueDate ⟨ofRecords records, tenant⟩ loan policy requested now
    (¬ OverAfter z windows (tenant.localDate requested) requested → ∃ due, result = .ok due) ∧
    (OverAfter z windows (tenant.localDate requested) requested →
      result = .error (.openPeriodsNotFound requested)) ∧
    (z.localDate requested ≤ tenant.localDate requested → ∃ due, result = .ok due) := by
  intro windows result
  have hrecorded : ∃ d, (sp, d) ∈ records := by
    obtain ⟨w, ⟨d, hd, -⟩, -⟩ := hlater
    exact ⟨d, hd.mem⟩
  obtain ⟨r, hr, hrzone, hrdays, hset⟩ := exists_register_of_zone hdays hrecorded
  have hresult : result = run ⟨ofRecords records, tenant⟩ (Strategy.ofPolicy policy now tenant) sp
      requested := hsp ▸ managedDueDate_of_noLimit hlimit
  have hwindows : windows = windowsOf {d | d ∈ r.days} := congrArg windowsOf hset
  rw [hset] at hlater
  rw [hresult, hwindows]
  exact run_laterWindow (s := ⟨ofRecords records, tenant⟩)
    (Strategy.ofPolicy_nextOpenTime hprofile hmanagement) hz htenant hr hrzone hrdays
    (haway _ (Calendar.adjacentDays_eq hr _)) hlater

/-- Hours in Kiritimati, fourteen hours ahead of universal time, on the mornings of Saturday 17 and
Monday 19 January 2026. -/
def kiritimatiRecords : List (ServicePoint × OpeningDay) :=
  let clock hour := (TimeOfDay.ofClock? hour 0 0 0).getD .midnight
  [(.zero, .withHours ⟨20470⟩ Zone.kiritimati [⟨clock 9, clock 12⟩]),
    (.zero, .withHours ⟨20472⟩ Zone.kiritimati [⟨clock 9, clock 12⟩])]

def januaryLoan : Loan := .ofCheckout "loan" (.ofSecond 1767952800) (.ofSecond 1767952800) .zero

theorem mem_windowsOf_kiritimati {w : Span .utc} :
    w ∈ windowsOf {d | Recorded kiritimatiRecords .zero d} ↔
      w ∈ [⟨.ofSecond 1768590000, .ofSecond 1768600800⟩,
        ⟨.ofSecond 1768762800, .ofSecond 1768773600⟩] := by
  have hset : {d | Recorded kiritimatiRecords .zero d} =
      {d | d ∈ kiritimatiRecords.map (·.2)} := by
    ext d
    show Recorded kiritimatiRecords .zero d ↔ _
    rw [Calendar.recorded_iff_mem (by decide)]
    simp [kiritimatiRecords]
  have hspans : (kiritimatiRecords.map (·.2)).mapM openSpans =
      .ok [[⟨.ofSecond 1768590000, .ofSecond 1768600800⟩],
        [⟨.ofSecond 1768762800, .ofSecond 1768773600⟩]] := by with_unfolding_all decide
  rw [hset, Timetable.mem_windowsOf_of_mapM hspans]
  rfl

theorem zone_of_mem_kiritimati {d : OpeningDay} (h : (.zero, d) ∈ kiritimatiRecords) :
    d.zone = Zone.kiritimati := by
  simp only [kiritimatiRecords, List.mem_cons, Prod.mk.injEq, List.not_mem_nil, or_false] at h
  rcases h with ⟨-, rfl⟩ | ⟨-, rfl⟩ <;> rfl

theorem kiritimati_awayFromEnds {requested : Instant} (h : Zone.utc.localDate requested = ⟨20469⟩)
    {a : AdjacentDays} (ha : (ofRecords kiritimatiRecords).adjacentDays .zero
      (Zone.utc.localDate requested) = .ok a) : a.AwayFromEnds := by
  have hends : ((ofRecords kiritimatiRecords).adjacentDays .zero ⟨20469⟩).map
      (fun a => (a.previous.date, a.next.date)) = .ok (⟨20468⟩, ⟨20470⟩) := by
    with_unfolding_all decide
  exact AdjacentDays.awayFromEnds_of_dates hends (by decide) (by decide) (h ▸ ha)

/-- An hour before the hours of Saturday begin, on Friday in universal time, they are found. -/
theorem managedDueDate_nextOpenTime_beforeHours :
    let week := LoanPolicy.rolling "week" ⟨1, .weeks⟩ .beginningOfNextOpenHours
    let windows := windowsOf {d | Recorded kiritimatiRecords .zero d}
    let requested : Instant := .ofSecond 1768586400
    Zone.kiritimati.IsFixed 50400 ∧ Zone.utc.IsFixed 0 ∧
    (∃ w ∈ windows, requested < w.start) ∧
    Zone.utc.localDate requested < Zone.kiritimati.localDate requested ∧
    ¬ OverAfter Zone.kiritimati windows (Zone.utc.localDate requested) requested ∧
    ∃ due, managedDueDate ⟨ofRecords kiritimatiRecords, Zone.utc⟩ januaryLoan week requested
      januaryLoan.loanDate = .ok due := by
  intro week windows requested
  have hz : Zone.kiritimati.IsFixed 50400 :=
    Zone.constant_isFixed "Pacific/Kiritimati" (by decide) (by decide)
  have htenant : Zone.utc.IsFixed 0 := Zone.constant_isFixed "UTC" (by decide) (by decide)
  have hlater : ∃ w ∈ windows, requested < w.start :=
    ⟨_, mem_windowsOf_kiritimati.mpr List.mem_cons_self, by decide⟩
  have hnotOver : ¬ OverAfter Zone.kiritimati windows (Zone.utc.localDate requested) requested := by
    have hstop : ∀ w ∈ windows, requested < w.stop := by
      simp only [windows, mem_windowsOf_kiritimati]
      decide
    rintro ⟨w, hw, -, hover⟩
    exact (hstop w hw).not_ge (hover w hw le_rfl)
  have hsp : januaryLoan.checkoutServicePoint = .zero := rfl
  have hprofile : week.profile = .rolling := rfl
  refine ⟨hz, htenant, hlater, by decide, hnotOver, ?_⟩
  obtain ⟨hfinds, -⟩ := managedDueDate_nextOpenTime hz htenant (fun d => zone_of_mem_kiritimati)
    (fun a => kiritimati_awayFromEnds (by decide)) hsp hprofile (.inr ⟨rfl, rfl⟩) rfl hlater
  exact hfinds hnotOver

/-- An hour after they have ended the hours of Monday are still to come, but Saturday is the only
day looked up. -/
theorem managedDueDate_openPeriodsNotFound :
    let week := LoanPolicy.rolling "week" ⟨1, .weeks⟩ .beginningOfNextOpenHours
    let requested : Instant := .ofSecond 1768604400
    Zone.kiritimati.IsFixed 50400 ∧ Zone.utc.IsFixed 0 ∧
    (∀ d, (.zero, d) ∈ kiritimatiRecords → d.zone = Zone.kiritimati) ∧
    (∀ a, (ofRecords kiritimatiRecords).adjacentDays .zero (Zone.utc.localDate requested) = .ok a →
      a.AwayFromEnds) ∧
    (∃ w ∈ windowsOf {d | Recorded kiritimatiRecords .zero d}, requested < w.start) ∧
    managedDueDate ⟨ofRecords kiritimatiRecords, Zone.utc⟩ januaryLoan week requested
      januaryLoan.loanDate = .error (.openPeriodsNotFound requested) := by
  intro week requested
  have hz : Zone.kiritimati.IsFixed 50400 :=
    Zone.constant_isFixed "Pacific/Kiritimati" (by decide) (by decide)
  have htenant : Zone.utc.IsFixed 0 := Zone.constant_isFixed "UTC" (by decide) (by decide)
  have hlater : ∃ w ∈ windowsOf {d | Recorded kiritimatiRecords .zero d}, requested < w.start :=
    ⟨_, mem_windowsOf_kiritimati.mpr (List.mem_cons_of_mem _ List.mem_cons_self), by decide⟩
  exact ⟨hz, htenant, fun d => zone_of_mem_kiritimati,
    fun a => kiritimati_awayFromEnds (by decide), hlater, by cbv⟩

end Service

end Circulation
