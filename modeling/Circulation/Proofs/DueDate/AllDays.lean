import Circulation.Proofs.DueDate.NearestWindow
import Circulation.Proofs.Strategy.Ahead

/-!
# The days around and all days

The strategies that move forward would do the same with a timetable of all recorded days, but for
hours that run past the end of the last day looked up: these end there although the recorded hours
go on.
-/

namespace Circulation

open OpeningDay
open Calendar (Recorded ofRecords)
open Strategy (EndsWithAll)

variable {records : List (ServicePoint × OpeningDay)} {sp : ServicePoint} {z : Zone} {offset : Int}
  {dates : List Date} {all : List OpeningDay} {date : Date}

/-- The list holds all recorded days and, for the dates and their neighbours, closed days where
nothing is recorded. -/
def AllDays (records : List (ServicePoint × OpeningDay)) (sp : ServicePoint) (z : Zone)
    (dates : List Date) (all : List OpeningDay) : Prop :=
  ∀ d, d ∈ all ↔ Recorded records sp d ∨ d = .closed d.date z ∧
    (∃ date ∈ dates, d.date ∈ [date.addDays (-1), date, date.addDays 1]) ∧
      ∀ e, Recorded records sp e → e.date ≠ d.date

namespace AllDays

theorem windowsOf_eq (h : AllDays records sp z dates all) :
    windowsOf {d | d ∈ all} = windowsOf {d | Recorded records sp d} := by
  ext w
  refine ⟨?_, ?_⟩
  · rintro ⟨d, hd, hw⟩
    rcases (h d).mp hd with hrecorded | ⟨hclosed, -⟩
    · exact ⟨d, hrecorded, hw⟩
    · have hopen := hw.isOpen
      rw [hclosed, isOpen_closed] at hopen
      cases hopen
  · rintro ⟨d, hd, hw⟩
    exact ⟨d, (h d).mpr (.inl hd), hw⟩

theorem exists_mem_of_date (h : AllDays records sp z dates all) (hdate : date ∈ dates) :
    ∃ d ∈ all, d.date = date := by
  by_cases hrecorded : ∃ d, Recorded records sp d ∧ d.date = date
  · obtain ⟨d, hd, hdd⟩ := hrecorded
    exact ⟨d, (h d).mpr (.inl hd), hdd⟩
  · refine ⟨.closed date z, (h _).mpr (.inr ⟨rfl, ⟨date, hdate, ?_⟩, fun e he hed => ?_⟩), rfl⟩
    · exact List.mem_cons_of_mem _ List.mem_cons_self
    · exact hrecorded ⟨e, he, hed⟩

theorem isInner (h : AllDays records sp z dates all)
    (hinner : ∀ d, (sp, d) ∈ records → d.IsInner z)
    (hdates : ∀ date ∈ dates,
      Date.first.addDays 1 < date ∧ (date.addDays 1).addDays 1 < Date.last) :
    ∀ d ∈ all, d.IsInner z := by
  intro d hd
  rcases (h d).mp hd with hrecorded | ⟨hclosed, ⟨date, hdate, hmem⟩, -⟩
  · exact hinner d hrecorded.mem
  · obtain ⟨hfirst, hlast⟩ := hdates date hdate
    have hday : date.day - 1 ≤ d.date.day ∧ d.date.day ≤ date.day + 1 := by
      simp only [List.mem_cons, List.not_mem_nil, or_false, Date.ext_iff, Date.addDays] at hmem
      omega
    simp only [Date.lt_def, Date.addDays] at hfirst hlast
    refine ⟨by rw [hclosed]; rfl, ?_, ?_⟩
    · rw [Date.lt_def]
      omega
    · simp only [Date.lt_def, Date.addDays]
      omega

end AllDays

namespace Service

variable {s : Service} {strategy : Strategy} {r : Register} {days : List OpeningDay}
  {requested : Instant}

theorem localDate_mem_datesOfInterest {m : Instant}
    (hm : m = requested ∨ strategy = .endOfCurrentHours m) :
    s.zone.localDate m ∈ s.datesOfInterest strategy requested := by
  rcases hm with rfl | rfl
  · unfold datesOfInterest
    split
    · dsimp only
      split <;> exact List.mem_cons_self
    · exact List.mem_cons_self
  · unfold datesOfInterest
    dsimp only
    split
    · rename_i heq
      rw [heq]
      exact List.mem_cons_self
    · exact List.mem_cons_of_mem _ List.mem_cons_self

/-- A strategy that moves forward gives the due date that it would with a timetable of all recorded
days, unless that is the closing time of hours that go on. -/
theorem run_eq_allDays (hcalendar : s.calendar = ofRecords records) (hz : s.zone.IsFixed offset)
    (hinner : ∀ d, (sp, d) ∈ records → d.IsInner s.zone) (hrecorded : ∃ d, (sp, d) ∈ records)
    (hforward : strategy.movesForward = true)
    (haway : ∀ date ∈ s.datesOfInterest strategy requested, ∀ a,
      s.calendar.adjacentDays sp date = .ok a → a.AwayFromEnds)
    (hall : AllDays records sp s.zone (s.datesOfInterest strategy requested) all)
    (hdays : s.daysAround sp (s.datesOfInterest strategy requested) = .ok days)
    (hends : EndsWithAll s.zone (openMoments {d | d ∈ days})
      (openMoments {d | Recorded records sp d}) (s.run strategy sp requested)) :
    ∃ t, Timetable.ofDays all s.zone = .ok t ∧
      s.run strategy sp requested = strategy.dueDate t requested := by
  obtain ⟨r, hr, hrzone, hrdays, hset⟩ :=
    exists_register_of_zone (fun d hd => (hinner d hd).zone_eq) hrecorded
  rw [← hcalendar] at hr
  have haway' : ∀ date ∈ s.datesOfInterest strategy requested, (r.adjacent date).AwayFromEnds :=
    fun date hdate => haway date hdate _ (Calendar.adjacentDays_eq hr date)
  obtain ⟨days', t, haround, hsees⟩ := exists_sees hz hr hrzone hrdays haway'
  obtain rfl := Except.ok.inj (hdays.symm.trans haround)
  have hallInner : ∀ d ∈ all, d.IsInner s.zone :=
    hall.isInner hinner fun date hdate => Register.date_of_awayFromEnds (haway' date hdate)
  obtain ⟨t', ht'⟩ := Timetable.exists_ofDays_of_inner hz hallInner
  obtain ⟨near, hnear, hzone, hfrom⟩ :=
    Strategy.exists_fromWindows hsees.ofDays (Timetable.upright_of_inner hz hsees.inner)
  obtain ⟨windows, hwindows, hzone', hfrom'⟩ :=
    Strategy.exists_fromWindows ht' (Timetable.upright_of_inner hz hallInner)
  rw [run_eq (Strategy.requiresCalendar_of_movesForward hforward) haround hsees.ofDays] at hends ⊢
  refine ⟨t', ht', Strategy.Extends.dueDate_eq ⟨hfrom, hfrom', hzone, hzone'⟩ hz hforward ?_ ?_ ?_⟩
  · intro m hm
    have hdate := localDate_mem_datesOfInterest (s := s) hm
    obtain ⟨d, hd, hdd⟩ := hall.exists_mem_of_date hdate
    refine ⟨?_, hsees.held m hdate,
      Timetable.mem_covered_of_date hz hallInner ht' hd hdd.symm⟩
    rw [← hnear, ← hwindows, hall.windowsOf_eq, hset]
    exact hsees.ahead m hdate
  · intro w hw stop hle
    obtain ⟨d, hd, hdw⟩ : w ∈ windowsOf {d | d ∈ days} := hnear ▸ hw
    exact Strategy.dueAtClosing_mono hz (hsees.inner d hd) hdw hle
  · rwa [Strategy.openMoments_eq_union hnear,
      Strategy.openMoments_eq_union (hall.windowsOf_eq.symm.trans hwindows)] at hends

/-- Hours from nine to five on 13 March 2026. -/
def fridayHours : OpeningDay :=
  let clock hour := (TimeOfDay.ofClock? hour 0 0 0).getD .midnight
  .withHours ⟨20525⟩ Zone.tokyo [⟨clock 9, clock 17⟩]

/-- The night hours and the day hours around a closed day, and Friday two days later. -/
def weekRecords : List (ServicePoint × OpeningDay) := (.zero, fridayHours) :: nightAndDay

theorem recorded_weekRecords {d : OpeningDay} : Recorded weekRecords .zero d ↔
    d ∈ [nightHours, .closed ⟨20522⟩ Zone.tokyo, dayHours, fridayHours] := by
  rw [Calendar.recorded_iff_mem (by decide)]
  simp only [weekRecords, nightAndDay, List.mem_cons, Prod.mk.injEq, true_and, List.not_mem_nil,
    or_false]
  tauto

/-- Friday is not looked up for a date on the closed day. -/
theorem run_eq_allDays_evening :
    let s : Service := ⟨ofRecords weekRecords, Zone.tokyo⟩
    let all := [nightHours, .closed ⟨20522⟩ Zone.tokyo, dayHours, fridayHours]
    Zone.tokyo.IsFixed 32400 ∧
    AllDays weekRecords .zero Zone.tokyo
      (s.datesOfInterest .endOfNextOpenDay noonLoan.dueDate) all ∧
    (∃ days, s.daysAround .zero (s.datesOfInterest .endOfNextOpenDay noonLoan.dueDate) = .ok days ∧
      fridayHours.isOpen ∧ fridayHours ∉ days) ∧
    s.run .endOfNextOpenDay .zero noonLoan.dueDate = .ok (.ofSecond 1773216000) ∧
    ∃ t, Timetable.ofDays all Zone.tokyo = .ok t ∧
      s.run .endOfNextOpenDay .zero noonLoan.dueDate =
        Strategy.endOfNextOpenDay.dueDate t noonLoan.dueDate := by
  intro s all
  have hinner : ∀ d, (.zero, d) ∈ weekRecords → d.IsInner Zone.tokyo := by
    intro d hd
    rcases List.mem_cons.mp hd with hfriday | hd
    · obtain rfl := (Prod.mk.inj hfriday).2
      exact ⟨rfl, by decide, by decide⟩
    · exact isInner_of_mem_nightAndDay hd
  have hdates : s.datesOfInterest .endOfNextOpenDay noonLoan.dueDate = [⟨20522⟩] := by decide
  have hall : AllDays weekRecords .zero Zone.tokyo
      (s.datesOfInterest .endOfNextOpenDay noonLoan.dueDate) all := by
    intro d
    rw [hdates, recorded_weekRecords]
    refine ⟨.inl, ?_⟩
    rintro (hd | ⟨-, ⟨date, hdate, hmem⟩, hnone⟩)
    · exact hd
    · obtain rfl := List.mem_singleton.mp hdate
      have haround : [(⟨20522⟩ : Date).addDays (-1), ⟨20522⟩, (⟨20522⟩ : Date).addDays 1] ⊆
          all.map (·.date) := by decide
      obtain ⟨e, he, hed⟩ := List.mem_map.mp (haround hmem)
      exact absurd hed (hnone e (recorded_weekRecords.mpr he))
  have hnear : Timetable.openTime [nightHours, .closed ⟨20522⟩ Zone.tokyo, dayHours] = .ok
      [⟨.ofSecond 1773061200, .ofSecond 1773075600⟩,
        ⟨.ofSecond 1773187200, .ofSecond 1773216000⟩] := by cbv
  have hopen : Timetable.openTime all = .ok
      [⟨.ofSecond 1773061200, .ofSecond 1773075600⟩,
        ⟨.ofSecond 1773187200, .ofSecond 1773216000⟩,
        ⟨.ofSecond 1773360000, .ofSecond 1773388800⟩] := by cbv
  have hdays : s.daysAround .zero (s.datesOfInterest .endOfNextOpenDay noonLoan.dueDate) =
      .ok [nightHours, .closed ⟨20522⟩ Zone.tokyo, dayHours] := by decide +kernel
  have hends : (s.calendar.adjacentDays .zero ⟨20522⟩).map
      (fun a => (a.previous.date, a.next.date)) = .ok (⟨20521⟩, ⟨20523⟩) := by
    with_unfolding_all decide
  refine ⟨Zone.tokyo_isFixed, hall, ⟨_, hdays, by with_unfolding_all decide, by decide⟩, by cbv, ?_⟩
  refine run_eq_allDays (s := s) rfl Zone.tokyo_isFixed hinner ⟨_, List.mem_cons_self⟩ rfl ?_ hall
    hdays ?_
  · intro date hdate a ha
    obtain rfl := List.mem_singleton.mp (hdates ▸ hdate)
    exact AdjacentDays.awayFromEnds_of_dates hends (by decide) (by decide) ha
  · simp only [recorded_weekRecords]
    exact Strategy.endsWithAll_of_openTime hnear hopen (by decide) (by decide) Zone.tokyo _

/-- Hours on 19 January 2026 that run to midnight and go on until two the next morning. -/
def midnightRecords : List (ServicePoint × OpeningDay) :=
  let clock hour minute := (TimeOfDay.ofClock? hour minute 0 0).getD .midnight
  [(.zero, .withHours ⟨20472⟩ Zone.utc [⟨clock 20 0, clock 23 59⟩]),
    (.zero, .withHours ⟨20473⟩ Zone.utc [⟨clock 0 0, clock 2 0⟩])]

/-- Three days before, the second of the two days is not looked up and the hours end at midnight. -/
theorem run_ne_allDays_midnight :
    let s : Service := ⟨ofRecords midnightRecords, Zone.utc⟩
    let requested : Instant := .ofSecond 1768564800
    Zone.utc.IsFixed 0 ∧ (∀ d, (.zero, d) ∈ midnightRecords → d.IsInner Zone.utc) ∧
    requested ∉ openMoments {d | Recorded midnightRecords .zero d} ∧
    ∃ all t, AllDays midnightRecords .zero Zone.utc
        (s.datesOfInterest .endOfNextOpenDay requested) all ∧
      Timetable.ofDays all Zone.utc = .ok t ∧
      Strategy.endOfNextOpenDay.dueDate t requested = .ok (.ofSecond 1768874400) ∧
      s.run .endOfNextOpenDay .zero requested = .ok (.ofSecond 1768867199) := by
  intro s requested
  have hz : Zone.utc.IsFixed 0 := Zone.constant_isFixed "UTC" (by decide) (by decide)
  have hrecorded : ∀ d, Recorded midnightRecords .zero d ↔ d ∈ midnightRecords.map (·.2) := by
    intro d
    rw [Calendar.recorded_iff_mem (by decide)]
    simp [midnightRecords]
  have hinner : ∀ d, (.zero, d) ∈ midnightRecords → d.IsInner Zone.utc := by
    intro d hd
    simp only [midnightRecords, List.mem_cons, Prod.mk.injEq, List.not_mem_nil, or_false] at hd
    rcases hd with ⟨-, rfl⟩ | ⟨-, rfl⟩ <;> exact ⟨rfl, by decide, by decide⟩
  have hopen : Timetable.openTime (midnightRecords.map (·.2)) =
      .ok [⟨.ofSecond 1768852800, .ofSecond 1768874400⟩] := by cbv
  have hdates : s.datesOfInterest .endOfNextOpenDay requested = [⟨20469⟩] := by decide
  let neighbours : List OpeningDay :=
    [.closed ⟨20468⟩ Zone.utc, .closed ⟨20469⟩ Zone.utc, .closed ⟨20470⟩ Zone.utc]
  have hdue : (Timetable.ofDays (midnightRecords.map (·.2) ++ neighbours) Zone.utc >>= fun t =>
      Strategy.endOfNextOpenDay.dueDate t requested) = .ok (.ofSecond 1768874400) := by cbv
  obtain ⟨t, ht, hdue⟩ := Result.bind_eq_ok_iff.mp hdue
  refine ⟨hz, hinner, ?_, _, t, fun d => ?_, ht, hdue, by cbv⟩
  · simp only [hrecorded]
    rw [← Timetable.union_of_openTime hopen]
    rintro ⟨w, hw, hm⟩
    obtain rfl := List.mem_singleton.mp hw
    exact absurd hm (by decide)
  · rw [hdates, hrecorded, List.mem_append]
    refine or_congr_right ⟨fun hd => ?_, ?_⟩
    · have hother : ∀ e ∈ neighbours, e = .closed e.date Zone.utc ∧
          e.date ∈ [(⟨20468⟩ : Date), ⟨20469⟩, ⟨20470⟩] ∧
          ∀ r ∈ midnightRecords.map (·.2), r.date ≠ e.date := by decide
      obtain ⟨hclosed, hdate, hnone⟩ := hother d hd
      exact ⟨hclosed, ⟨_, List.mem_singleton_self _, hdate⟩, fun e he =>
        hnone e ((hrecorded e).mp he)⟩
    · rintro ⟨hclosed, ⟨date, hdate, hmem⟩, -⟩
      obtain rfl := List.mem_singleton.mp hdate
      have hmem' : d.date ∈ neighbours.map (·.date) := hmem
      rw [hclosed]
      exact List.mem_map_of_mem (f := fun date => closed date Zone.utc) hmem'

end Service

end Circulation
