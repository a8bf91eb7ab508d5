import Circulation.Proofs.Calendar.LastRecord
import Circulation.Proofs.Calendar.OpenDays
import Circulation.Proofs.DueDate.Around

/-!
# No open day is hidden

The days adjacent to a date show an open day wherever one is recorded, as a closed day stands for
other days only where no open day is recorded. So the days around several dates are alike for each
date, whichever of the dates they come from, and they make the same timetable in whatever order the
dates are looked up.
-/

namespace Circulation

open List (Forall₂)
open OpeningDay (Alike)
open Calendar (Recorded lastRecord lastRecord_eq_some_iff mem_openDates_iff ofRecords openDates)

/-! ## The days adjacent to one date -/

namespace Register

variable {r : Register} {date : Date} {d e : OpeningDay}

/-- An open day recorded on the date of an adjacent day is that day. -/
theorem eq_of_mem_adjacent (hfirst : Date.first < date) (hlast : date < Date.last)
    (hd : d ∈ (r.adjacent date).days) (he : e ∈ r.days) (hopen : e.isOpen = true)
    (hdate : e.date = d.date) : d = e := by
  simp only [AdjacentDays.days, adjacent, List.mem_cons, List.not_mem_nil, or_false] at hd
  rcases hd with rfl | rfl | rfl
  · rcases r.openBefore_cases date with ⟨hmem, -⟩ | ⟨hclosed, hnone⟩
    · exact eq_of_date_eq hmem he hdate.symm
    · refine absurd ?_ (hnone e he hopen)
      rw [hdate, hclosed, Date.previous?, if_pos hfirst]
      simp only [Option.getD_some, OpeningDay.closed, Date.lt_def, Date.addDays]
      omega
  · rw [r.day_date] at hdate
    rw [← hdate, day_eq he]
  · rcases r.openAfter_cases hlast with ⟨hmem, -⟩ | ⟨hclosed, hnone⟩
    · exact eq_of_date_eq hmem he hdate.symm
    · refine absurd ?_ (hnone e he hopen)
      rw [hdate, hclosed]
      simp only [OpeningDay.closed, Date.lt_def, Date.addDays]
      omega

end Register

namespace Service

variable {records : List (ServicePoint × OpeningDay)} {sp : ServicePoint} {s : Service}
  {r : Register} {dates : List Date} {days others kept : List OpeningDay} {d e : OpeningDay}

/-- No date of interest is the first or the last one. -/
def Between (dates : List Date) : Prop := ∀ date ∈ dates, Date.first < date ∧ date < Date.last

/-- The days adjacent to any of the dates. -/
def adjacents (r : Register) (dates : List Date) : List OpeningDay :=
  dates.flatMap fun date => (r.adjacent date).days

theorem mem_adjacents {date : Date} (hdate : date ∈ dates) (hd : d ∈ (r.adjacent date).days) :
    d ∈ adjacents r dates :=
  List.mem_flatMap.mpr ⟨date, hdate, hd⟩

theorem mem_of_mem_adjacents (hdates : Between dates) (hd : d ∈ adjacents r dates)
    (hopen : d.isOpen = true) : d ∈ r.days := by
  obtain ⟨date, hdate, hd⟩ := List.mem_flatMap.mp hd
  exact Register.mem_of_mem_adjacent (hdates date hdate).2 hd hopen

theorem eq_of_mem_adjacents (hdates : Between dates) (hd : d ∈ adjacents r dates)
    (he : e ∈ r.days) (hopen : e.isOpen = true) (hdate : e.date = d.date) : d = e := by
  obtain ⟨date, hmem, hd⟩ := List.mem_flatMap.mp hd
  exact Register.eq_of_mem_adjacent (hdates date hmem).1 (hdates date hmem).2 hd he hopen hdate

/-- Adjacent days of one date are alike. -/
theorem alike_of_mem_adjacents (hdates : Between dates) (hd : d ∈ adjacents r dates)
    (he : e ∈ adjacents r dates) (hdate : d.date = e.date) : Alike d e := by
  cases hdopen : d.isOpen with
  | true =>
    have hmem := mem_of_mem_adjacents hdates hd hdopen
    exact .inl (eq_of_mem_adjacents hdates he hmem hdopen hdate).symm
  | false =>
    cases heopen : e.isOpen with
    | true =>
      have hmem := mem_of_mem_adjacents hdates he heopen
      exact .inl (eq_of_mem_adjacents hdates hd hmem heopen hdate.symm)
    | false => exact .inr ⟨hdate, hdopen, heopen⟩

/-! ## The days collected -/

/-- Days in order that have the same dates are alike one by one if those of one date are. -/
theorem forall₂_alike (hsorted : days.Pairwise fun a b => a.date < b.date)
    (hsorted' : others.Pairwise fun a b => a.date < b.date)
    (hdates : ∀ date, (∃ d ∈ days, d.date = date) ↔ ∃ e ∈ others, e.date = date)
    (halike : ∀ d ∈ days, ∀ e ∈ others, d.date = e.date → Alike d e) :
    Forall₂ Alike days others := by
  have heq : days.map (·.date) = others.map (·.date) := by
    refine (List.pairwise_map.mpr hsorted).eq_of_mem_iff (List.pairwise_map.mpr hsorted')
      fun date => ?_
    rw [List.mem_map, List.mem_map]
    exact hdates date
  have hforall : Forall₂ (fun d e : OpeningDay => d.date = e.date) days others := by
    rwa [← List.forall₂_eq_eq_eq, List.forall₂_map_left_iff, List.forall₂_map_right_iff] at heq
  obtain ⟨hlength, hzip⟩ := List.forall₂_iff_zip.mp hforall
  refine List.forall₂_iff_zip.mpr ⟨hlength, fun {d e} hde => ?_⟩
  exact halike d (List.of_mem_zip hde).1 e (List.of_mem_zip hde).2 (hzip hde)

theorem Collects.alike (hdates : Between dates) (h : Collects (adjacents r dates) days)
    (h' : Collects (adjacents r dates.reverse) others) : Forall₂ Alike days others := by
  have hmem : ∀ d, d ∈ adjacents r dates.reverse ↔ d ∈ adjacents r dates := by
    simp [adjacents]
  refine forall₂_alike h.sorted h'.sorted (fun date => ⟨?_, ?_⟩) fun d hd e he hdate => ?_
  · rintro ⟨d, hd, rfl⟩
    obtain ⟨e, he, hdate, -⟩ := h'.covers d ((hmem d).mpr (h.subset d hd))
    exact ⟨e, he, hdate⟩
  · rintro ⟨e, he, rfl⟩
    obtain ⟨d, hd, hdate, -⟩ := h.covers e ((hmem e).mp (h'.subset e he))
    exact ⟨d, hd, hdate⟩
  · exact alike_of_mem_adjacents hdates (h.subset d hd) ((hmem e).mp (h'.subset e he)) hdate

theorem Collects.mem_of_isOpen (hdates : Between dates) (h : Collects (adjacents r dates) days)
    (hd : d ∈ adjacents r dates) (hopen : d.isOpen = true) : d ∈ days := by
  obtain ⟨e, he, hdate, -⟩ := h.covers d hd
  have hmem := mem_of_mem_adjacents hdates hd hopen
  obtain rfl := eq_of_mem_adjacents hdates (h.subset e he) hmem hopen hdate.symm
  exact he

/-- The days shown for some dates: for each date they have, the last record if it is open and a day
without windows if not. They have the dates themselves and the open days nearest to them. -/
structure ShowsOpenDays (records : List (ServicePoint × OpeningDay)) (sp : ServicePoint)
    (dates : List Date) (days : List OpeningDay) : Prop where
  sorted : days.Pairwise fun d e => d.date < e.date
  record_iff : ∀ d ∈ days,
    d.isOpen = true ∧ lastRecord records sp d.date = some d ↔ d.date ∈ openDates records sp
  no_windows : ∀ d ∈ days, d.date ∉ openDates records sp → d.openWindows = []
  date_mem : ∀ date ∈ dates, ∃ d ∈ days, d.date = date
  previous_mem : ∀ date ∈ dates, ∀ e, IsGreatest (openDates records sp ∩ Set.Iio date) e →
    ∃ d ∈ days, lastRecord records sp e = some d
  next_mem : ∀ date ∈ dates, ∀ e, IsLeast (openDates records sp ∩ Set.Ioi date) e →
    ∃ d ∈ days, lastRecord records sp e = some d

theorem ShowsOpenDays.subset {others : List Date} (h : ShowsOpenDays records sp dates days)
    (hsub : ∀ date ∈ others, date ∈ dates) : ShowsOpenDays records sp others days where
  sorted := h.sorted
  record_iff := h.record_iff
  no_windows := h.no_windows
  date_mem date hdate := h.date_mem date (hsub date hdate)
  previous_mem date hdate := h.previous_mem date (hsub date hdate)
  next_mem date hdate := h.next_mem date (hsub date hdate)

theorem Collects.showsOpenDays (hrecorded : ∀ day, day ∈ r.days ↔ Recorded records sp day)
    (hdates : Between dates) (h : Collects (adjacents r dates) days) :
    ShowsOpenDays records sp dates days := by
  have hmem_openDates : ∀ d ∈ days, d.isOpen = true → d.date ∈ openDates records sp := by
    intro d hd hopen
    have hmem := mem_of_mem_adjacents hdates (h.subset d hd) hopen
    exact (mem_openDates_iff hrecorded).mpr ⟨d, hmem, hopen, rfl⟩
  constructor
  case sorted => exact h.sorted
  case record_iff =>
    intro d hd
    refine ⟨fun ⟨hopen, _⟩ => hmem_openDates d hd hopen, fun hdate => ?_⟩
    obtain ⟨e, he, hopen, hed⟩ := (mem_openDates_iff hrecorded).mp hdate
    obtain rfl := eq_of_mem_adjacents hdates (h.subset d hd) he hopen hed
    exact ⟨hopen, Calendar.lastRecord_date hrecorded he⟩
  case no_windows =>
    intro d hd hdate
    refine OpeningDay.openWindows_eq_nil ?_
    rw [← Bool.not_eq_true]
    exact fun hopen => hdate (hmem_openDates d hd hopen)
  case date_mem =>
    intro date hdate
    obtain ⟨e, he, hed, -⟩ := h.covers _ (mem_adjacents hdate (r.day_mem_adjacent date))
    exact ⟨e, he, hed.trans (r.day_date date)⟩
  case previous_mem =>
    rintro date hdate _ ⟨⟨hnear, hlt⟩, hmax⟩
    obtain ⟨e, he, hopen, rfl⟩ := (mem_openDates_iff hrecorded).mp hnear
    obtain ⟨hmem, hisOpen, hbefore, hcases⟩ := Register.openBefore_of_isOpen he hopen hlt
    have hle := hmax ⟨(mem_openDates_iff hrecorded).mpr ⟨_, hmem, hisOpen, rfl⟩, hbefore⟩
    obtain rfl := hcases.resolve_right hle.not_gt
    have hadjacent := mem_adjacents hdate (r.previous_mem_adjacent date)
    exact ⟨_, h.mem_of_isOpen hdates hadjacent hisOpen, Calendar.lastRecord_date hrecorded hmem⟩
  case next_mem =>
    rintro date hdate _ ⟨⟨hnear, hlt⟩, hmin⟩
    obtain ⟨e, he, hopen, rfl⟩ := (mem_openDates_iff hrecorded).mp hnear
    obtain ⟨hmem, hisOpen, hafter, hcases⟩ :=
      Register.openAfter_of_isOpen (hdates date hdate).2 he hopen hlt
    have hle := hmin ⟨(mem_openDates_iff hrecorded).mpr ⟨_, hmem, hisOpen, rfl⟩, hafter⟩
    obtain rfl := hcases.resolve_right hle.not_gt
    have hadjacent := mem_adjacents hdate (r.next_mem_adjacent date)
    exact ⟨_, h.mem_of_isOpen hdates hadjacent hisOpen, Calendar.lastRecord_date hrecorded hmem⟩

/-- The dates of interest at an instant are the requested date and the one of the instant. -/
theorem mem_datesOfInterest {requested now : Instant} {date : Date} :
    date ∈ s.datesOfInterest (.endOfCurrentHours now) requested ↔
      date = s.zone.localDate requested ∨ date = s.zone.localDate now := by
  simp only [datesOfInterest]
  split
  · rename_i heq
    rw [List.mem_singleton, heq, or_self]
  · rw [List.mem_pair]

/-- Around a requested date and the present date, the days collected show every open day that is
recorded for a date they have or next to the two dates, and the timetable made of them is the same
in whatever order the two dates are looked up. -/
theorem timetable_hidesNoOpenDay {requested now : Instant} (hs : s.calendar = ofRecords records)
    (hsp : ∃ day, (sp, day) ∈ records)
    (hdates : Between [s.zone.localDate requested, s.zone.localDate now]) :
    ∃ days others,
      s.daysAround sp (s.datesOfInterest (.endOfCurrentHours now) requested) = .ok days ∧
      ShowsOpenDays records sp [s.zone.localDate requested, s.zone.localDate now] days ∧
      s.timetable (.endOfCurrentHours now) sp requested = Timetable.ofDays days s.zone ∧
      s.daysAround sp (s.datesOfInterest (.endOfCurrentHours now) requested).reverse =
        .ok others ∧
      Timetable.ofDays others s.zone = Timetable.ofDays days s.zone := by
  obtain ⟨r, -, hr, -, -, hrecorded⟩ := Calendar.exists_register hsp
  rw [← hs] at hr
  have hmem : ∀ date, date ∈ [s.zone.localDate requested, s.zone.localDate now] ↔
      date ∈ s.datesOfInterest (.endOfCurrentHours now) requested := by
    intro date
    rw [mem_datesOfInterest, List.mem_pair]
  have hbetween : Between (s.datesOfInterest (.endOfCurrentHours now) requested) :=
    fun date hdate => hdates date ((hmem date).mpr hdate)
  have haround := daysAround_eq hr (s.datesOfInterest (.endOfCurrentHours now) requested)
  have hdays := collects_foldl
    (adjacents r (s.datesOfInterest (.endOfCurrentHours now) requested))
  have hothers := collects_foldl
    (adjacents r (s.datesOfInterest (.endOfCurrentHours now) requested).reverse)
  refine ⟨_, _, haround, ?_, ?_, daysAround_eq hr _, ?_⟩
  · exact (hdays.showsOpenDays hrecorded hbetween).subset fun date hdate => (hmem date).mp hdate
  · rw [timetable, haround]
    rfl
  · exact (Timetable.ofDays_eq_of_alike (hdays.alike hbetween hothers) s.zone).symm

/-- A closed day between two open ones, which are recorded after it. -/
def closedBetween : List (ServicePoint × OpeningDay) :=
  [(.zero, .closed ⟨20522⟩ Zone.tokyo), (.zero, .nightHours), (.zero, .dayHours)]

theorem timetable_hidesNoOpenDay_closedBetween :
    let s : Service := ⟨ofRecords closedBetween, Zone.tokyo⟩
    let noon : Instant := .ofSecond 1773111600
    let dayBefore : Instant := .ofSecond 1773018000
    (∃ day, (.zero, day) ∈ closedBetween) ∧
    Between [Zone.tokyo.localDate noon, Zone.tokyo.localDate dayBefore] ∧
    ∃ days others, s.daysAround .zero [⟨20522⟩, ⟨20521⟩] = .ok days ∧
      days = [.closed ⟨20520⟩ Zone.tokyo, .nightHours, .closed ⟨20522⟩ Zone.tokyo, .dayHours] ∧
      ShowsOpenDays closedBetween .zero [Zone.tokyo.localDate noon, Zone.tokyo.localDate dayBefore]
        days ∧
      s.daysAround .zero [⟨20521⟩, ⟨20522⟩] = .ok others ∧
      Timetable.ofDays others Zone.tokyo = Timetable.ofDays days Zone.tokyo := by
  intro s noon dayBefore
  have hsp : ∃ day, (.zero, day) ∈ closedBetween := ⟨_, List.mem_cons_self⟩
  have hdates : Between [Zone.tokyo.localDate noon, Zone.tokyo.localDate dayBefore] := by
    simp only [Between, List.forall_mem_cons]
    decide
  have hinterest : s.datesOfInterest (.endOfCurrentHours dayBefore) noon = [⟨20522⟩, ⟨20521⟩] := by
    decide
  obtain ⟨days, others, hdays, hshows, -, hothers, htimetable⟩ :=
    @timetable_hidesNoOpenDay closedBetween .zero s noon dayBefore rfl hsp hdates
  rw [hinterest] at hdays hothers
  have heq : s.daysAround .zero [⟨20522⟩, ⟨20521⟩] = .ok
      [.closed ⟨20520⟩ Zone.tokyo, .nightHours, .closed ⟨20522⟩ Zone.tokyo, .dayHours] := by
    decide +kernel
  exact ⟨hsp, hdates, days, others, hdays, Except.ok.inj (hdays.symm.trans heq), hshows, hothers,
    htimetable⟩

end Service

end Circulation
