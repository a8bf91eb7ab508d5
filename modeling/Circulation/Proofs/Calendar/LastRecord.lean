import Circulation.Proofs.Calendar.Adjacent
import Circulation.Proofs.Calendar.Records
import Mathlib.Data.List.Sort
import Mathlib.Data.Set.Card

/-!
# Last records

A calendar is a map from service points and dates to the last day recorded there. Whatever was
recorded in which order, the number of days, the days around a date and the days between two
instants are those of that map, with closed days for the dates that it leaves out.
-/

namespace Circulation

/-! ## Runs of dates -/

theorem Date.mem_upFrom {start date : Date} {count : Nat} :
    date ∈ start.upFrom count ↔ start ≤ date ∧ date < start.addDays count := by
  induction count generalizing start with
  | zero =>
    simp only [upFrom, List.not_mem_nil, false_iff, Date.le_def, Date.lt_def, addDays]
    omega
  | succ count ih =>
    rw [upFrom, List.mem_cons, ih, Date.ext_iff]
    simp only [Date.le_def, Date.lt_def, addDays]
    omega

theorem Date.upFrom_pairwise (start : Date) (count : Nat) :
    (start.upFrom count).Pairwise (· < ·) := by
  induction count generalizing start with
  | zero => exact .nil
  | succ count ih =>
    refine List.pairwise_cons.mpr ⟨fun date hdate => ?_, ih _⟩
    have hle := (mem_upFrom.mp hdate).1
    simp only [Date.le_def, Date.lt_def, addDays] at *
    omega

namespace Register

variable {r : Register} {first last date : Date} {d : OpeningDay}

theorem mem_datesBetween (hlast : last < Date.last) :
    date ∈ datesBetween first last ↔ first ≤ date ∧ date ≤ last := by
  rw [datesBetween, Date.mem_upFrom]
  simp only [Date.le_def, Date.lt_def, Date.addDays] at *
  omega

theorem day?_eq_some_iff : r.day? date = some d ↔ d ∈ r.days ∧ d.date = date := by
  unfold day?
  refine ⟨fun h => ⟨List.mem_of_find?_eq_some h, by simpa using List.find?_some h⟩, ?_⟩
  rintro ⟨hd, rfl⟩
  obtain ⟨e, he⟩ : ∃ e, r.days.find? (fun e => e.date = d.date) = some e :=
    Option.isSome_iff_exists.mp (List.find?_isSome.mpr ⟨d, hd, by simp⟩)
  have hdate : e.date = d.date := by simpa using List.find?_some he
  rw [he, eq_of_date_eq (List.mem_of_find?_eq_some he) hd hdate]

/-! ## Days between two dates -/

theorem between_true_pairwise :
    (r.between first last true).Pairwise fun d e => d.date < e.date := by
  rw [between, if_pos rfl, List.pairwise_map]
  refine (Date.upFrom_pairwise _ _).imp fun {d e} hlt => ?_
  rwa [r.day_date, r.day_date]

theorem mem_between_true (hlast : last < Date.last) :
    d ∈ r.between first last true ↔ d = r.day d.date ∧ first ≤ d.date ∧ d.date ≤ last := by
  rw [between, if_pos rfl, List.mem_map]
  refine ⟨?_, fun ⟨hd, hdates⟩ => ⟨d.date, (mem_datesBetween hlast).mpr hdates, hd.symm⟩⟩
  rintro ⟨date, hdate, rfl⟩
  rw [r.day_date]
  exact ⟨rfl, (mem_datesBetween hlast).mp hdate⟩

/-- The recorded open days between two dates are the open ones of all days. -/
theorem between_false (hlast : last < Date.last) :
    r.between first last false = (r.between first last true).filter (·.isOpen) := by
  have hirrefl : Std.Irrefl fun a b : OpeningDay => a.date < b.date := ⟨fun _ => lt_irrefl _⟩
  have hasymm : Std.Antisymm fun a b : OpeningDay => a.date < b.date :=
    ⟨fun _ _ hab hba => absurd hab hba.asymm⟩
  have hsorted : (r.between first last false).Pairwise fun a b => a.date < b.date := by
    rw [between, if_neg Bool.false_ne_true]
    exact r.sorted.filter _
  refine hsorted.eq_of_mem_iff (between_true_pairwise.filter _) fun d => ?_
  rw [List.mem_filter, mem_between_true hlast, between, if_neg Bool.false_ne_true, List.mem_filter]
  simp only [decide_eq_true_eq]
  refine ⟨fun ⟨hd, hfirst, hle, _, hopen⟩ => ⟨⟨(day_eq hd).symm, hfirst, hle⟩, hopen⟩, ?_⟩
  rintro ⟨⟨hd, hfirst, hle⟩, hopen⟩
  refine ⟨?_, hfirst, hle, hle.trans_lt hlast, hopen⟩
  -- An open day is no placeholder.
  rcases r.day_cases d.date with ⟨hmem, -⟩ | ⟨hclosed, -⟩
  · rwa [← hd] at hmem
  · rw [hd, hclosed, OpeningDay.isOpen_closed] at hopen
    cases hopen

end Register

namespace Calendar

variable {records : List (ServicePoint × OpeningDay)} {sp : ServicePoint} {r : Register}
  {first day : OpeningDay} {date : Date}

/-! ## The map -/

/-- The last day recorded for a service point and a date. -/
def lastRecord (records : List (ServicePoint × OpeningDay)) (sp : ServicePoint) (date : Date) :
    Option OpeningDay :=
  (records.filter fun record => record.1 = sp ∧ record.2.date = date).getLast?.map (·.2)

/-- The last record, or a closed day where nothing is recorded. -/
def dayOf (records : List (ServicePoint × OpeningDay)) (sp : ServicePoint) (zone : Zone)
    (date : Date) : OpeningDay :=
  (lastRecord records sp date).getD (.closed date zone)

/-- The dates whose last records are open. -/
def openDates (records : List (ServicePoint × OpeningDay)) (sp : ServicePoint) : Set Date :=
  {date | ∃ day, lastRecord records sp date = some day ∧ day.isOpen = true}

theorem lastRecord_concat (records : List (ServicePoint × OpeningDay))
    (record : ServicePoint × OpeningDay) (sp : ServicePoint) (date : Date) :
    lastRecord (records ++ [record]) sp date =
      if record.1 = sp ∧ record.2.date = date then some record.2
      else lastRecord records sp date := by
  unfold lastRecord
  rw [List.filter_append]
  by_cases h : record.1 = sp ∧ record.2.date = date
  · simp [h]
  · simp [h]

theorem lastRecord_eq_some_iff :
    lastRecord records sp date = some day ↔ Recorded records sp day ∧ day.date = date := by
  induction records using List.reverseRecOn with
  | nil => simp [lastRecord, Recorded]
  | append_singleton records record ih =>
    rw [lastRecord_concat, recorded_concat]
    -- The record at the end is the last one of its own date and leaves the others as they are.
    obtain ⟨other, e⟩ := record
    by_cases h : other = sp ∧ e.date = date
    · obtain ⟨rfl, rfl⟩ := h
      rw [if_pos ⟨rfl, rfl⟩]
      refine ⟨fun heq => ?_, ?_⟩
      · obtain rfl := Option.some.inj heq
        exact ⟨.inl rfl, rfl⟩
      · rintro ⟨heq | ⟨-, hne⟩, hdate⟩
        · rw [(Prod.mk.inj heq).2]
        · exact absurd hdate.symm (hne rfl)
    · rw [if_neg h, ih]
      refine ⟨fun ⟨hday, hdate⟩ => ⟨.inr ⟨hday, fun hsp heq => ?_⟩, hdate⟩, ?_⟩
      · exact h ⟨hsp, heq.trans hdate⟩
      · rintro ⟨heq | ⟨hday, -⟩, hdate⟩
        · obtain ⟨rfl, rfl⟩ := Prod.mk.inj heq
          exact absurd ⟨rfl, hdate⟩ h
        · exact ⟨hday, hdate⟩

/-- A date has a last record if anything is recorded for it. -/
theorem exists_lastRecord_iff :
    (∃ day, lastRecord records sp date = some day) ↔
      ∃ day, (sp, day) ∈ records ∧ day.date = date := by
  rw [← Option.isSome_iff_exists, lastRecord, Option.isSome_map, List.getLast?_isSome,
    ne_eq, List.filter_eq_nil_iff]
  simp

theorem lookup_eq_none_iff_not_mem :
    records.lookup sp = none ↔ ∀ day, (sp, day) ∉ records := by
  rw [List.lookup_eq_none_iff]
  refine ⟨fun h day hday => by simpa using h _ hday, ?_⟩
  rintro h ⟨other, day⟩ hday
  by_contra heq
  have hsp : sp = other := by simpa using heq
  exact h day (hsp ▸ hday)

/-! ## Registers of the last records -/

section Register

variable (hdays : ∀ day, day ∈ r.days ↔ Recorded records sp day)
include hdays

theorem day?_eq_lastRecord (date : Date) : r.day? date = lastRecord records sp date := by
  refine Option.ext fun day => ?_
  rw [Register.day?_eq_some_iff, lastRecord_eq_some_iff, hdays]

theorem day_eq_dayOf (date : Date) : r.day date = dayOf records sp r.zone date := by
  rw [Register.day, day?_eq_lastRecord hdays, dayOf]

theorem mem_openDates_iff :
    date ∈ openDates records sp ↔ ∃ e ∈ r.days, e.isOpen = true ∧ e.date = date := by
  simp only [openDates, Set.mem_ofPred_eq, lastRecord_eq_some_iff, hdays]
  exact ⟨fun ⟨e, ⟨he, hdate⟩, hopen⟩ => ⟨e, he, hopen, hdate⟩,
    fun ⟨e, he, hopen, hdate⟩ => ⟨e, ⟨he, hdate⟩, hopen⟩⟩

theorem lastRecord_date (hday : day ∈ r.days) : lastRecord records sp day.date = some day :=
  lastRecord_eq_some_iff.mpr ⟨(hdays day).mp hday, rfl⟩

/-- The number of days of a register is the number of dates recorded. -/
theorem ncard_recordedDates :
    {date | ∃ day, (sp, day) ∈ records ∧ day.date = date}.ncard = r.days.length := by
  have hnodup : (r.days.map (·.date)).Nodup :=
    List.pairwise_map.mpr (r.sorted.imp fun hlt => ne_of_lt hlt)
  have hset : {date | ∃ day, (sp, day) ∈ records ∧ day.date = date} =
      ((r.days.map (·.date)).toFinset : Set Date) := by
    ext date
    rw [Set.mem_ofPred_eq, ← exists_lastRecord_iff]
    simp [lastRecord_eq_some_iff, hdays]
  rw [hset, Set.ncard_coe_finset, List.toFinset_card_of_nodup hnodup, List.length_map]

theorem previous_cases (hfirst : Date.first < date) :
    (∃ e, IsGreatest (openDates records sp ∩ Set.Iio date) e ∧
      lastRecord records sp e = some (r.openBefore date)) ∨
    openDates records sp ∩ Set.Iio date = ∅ ∧
      r.openBefore date = .closed (date.addDays (-1)) r.zone := by
  rcases r.openBefore_cases date with ⟨hmem, hopen, hlt, hmax⟩ | ⟨hclosed, hnone⟩
  · refine .inl ⟨_, ⟨⟨(mem_openDates_iff hdays).mpr ⟨_, hmem, hopen, rfl⟩, hlt⟩, ?_⟩,
      lastRecord_date hdays hmem⟩
    rintro date' ⟨hdate', hlt'⟩
    obtain ⟨e, he, heopen, rfl⟩ := (mem_openDates_iff hdays).mp hdate'
    exact hmax e he heopen hlt'
  · refine .inr ⟨Set.eq_empty_of_forall_notMem ?_, ?_⟩
    · rintro date' ⟨hdate', hlt'⟩
      obtain ⟨e, he, heopen, rfl⟩ := (mem_openDates_iff hdays).mp hdate'
      exact hnone e he heopen hlt'
    · rw [hclosed, Date.previous?, if_pos hfirst]
      rfl

theorem next_cases (hlast : date < Date.last) :
    (∃ e, IsLeast (openDates records sp ∩ Set.Ioi date) e ∧
      lastRecord records sp e = some (r.openAfter date)) ∨
    openDates records sp ∩ Set.Ioi date = ∅ ∧
      r.openAfter date = .closed (date.addDays 1) r.zone := by
  rcases r.openAfter_cases hlast with ⟨hmem, hopen, hlt, hmin⟩ | ⟨hclosed, hnone⟩
  · refine .inl ⟨_, ⟨⟨(mem_openDates_iff hdays).mpr ⟨_, hmem, hopen, rfl⟩, hlt⟩, ?_⟩,
      lastRecord_date hdays hmem⟩
    rintro date' ⟨hdate', hlt'⟩
    obtain ⟨e, he, heopen, rfl⟩ := (mem_openDates_iff hdays).mp hdate'
    exact hmin e he heopen hlt'
  · refine .inr ⟨Set.eq_empty_of_forall_notMem ?_, hclosed⟩
    rintro date' ⟨hdate', hlt'⟩
    obtain ⟨e, he, heopen, rfl⟩ := (mem_openDates_iff hdays).mp hdate'
    exact hnone e he heopen hlt'

end Register

/-! ## Answers of the map -/

/-- The days around a date, as the last records have them. -/
structure IsAdjacent (records : List (ServicePoint × OpeningDay)) (sp : ServicePoint)
    (zone : Zone) (date : Date) (a : AdjacentDays) : Prop where
  requested : a.requested = dayOf records sp zone date
  previous : (∃ e, IsGreatest (openDates records sp ∩ Set.Iio date) e ∧
      lastRecord records sp e = some a.previous) ∨
    openDates records sp ∩ Set.Iio date = ∅ ∧ a.previous = .closed (date.addDays (-1)) zone
  next : (∃ e, IsLeast (openDates records sp ∩ Set.Ioi date) e ∧
      lastRecord records sp e = some a.next) ∨
    openDates records sp ∩ Set.Ioi date = ∅ ∧ a.next = .closed (date.addDays 1) zone
  previous_lt : a.previous.date < a.requested.date
  lt_next : a.requested.date < a.next.date

/-- One day for each date from the first to the last, in order, as the last records have it. -/
structure IsBetween (records : List (ServicePoint × OpeningDay)) (sp : ServicePoint)
    (zone : Zone) (first last : Date) (days : List OpeningDay) : Prop where
  sorted : days.Pairwise fun d e => d.date < e.date
  dates : ∀ date, (∃ d ∈ days, d.date = date) ↔ first ≤ date ∧ date ≤ last
  eq_dayOf : ∀ d ∈ days, d = dayOf records sp zone d.date
  reversed : last < first → days = []

/-- The calendar answers for a service point as the map of its last records does. -/
structure Represents (c : Calendar) (records : List (ServicePoint × OpeningDay))
    (sp : ServicePoint) : Prop where
  dayCount : c.dayCount sp = {date | ∃ day, (sp, day) ∈ records ∧ day.date = date}.ncard
  adjacentDays_unavailable : ∀ date,
    c.adjacentDays sp date = .error (unavailable sp) ↔ ∀ day, (sp, day) ∉ records
  daysBetween_unavailable : ∀ start stop includeClosed,
    c.daysBetween sp start stop includeClosed = .error (unavailable sp) ↔
      ∀ day, (sp, day) ∉ records
  adjacentDays : ∀ first, records.lookup sp = some first →
    ∀ date, Date.first < date → date < Date.last →
      ∃ a, c.adjacentDays sp date = .ok a ∧ IsAdjacent records sp first.zone date a
  daysBetween : ∀ first, records.lookup sp = some first →
    ∀ start stop, first.zone.localDate stop < Date.last →
      ∃ days, c.daysBetween sp start stop true = .ok days ∧
        IsBetween records sp first.zone (first.zone.localDate start)
          (first.zone.localDate stop) days ∧
        c.daysBetween sp start stop false = .ok (days.filter (·.isOpen))

theorem isAdjacent_adjacent (hdays : ∀ day, day ∈ r.days ↔ Recorded records sp day)
    (hfirst : Date.first < date) (hlast : date < Date.last) :
    IsAdjacent records sp r.zone date (r.adjacent date) := by
  constructor
  case requested => exact day_eq_dayOf hdays date
  case previous => exact previous_cases hdays hfirst
  case next => exact next_cases hdays hlast
  case previous_lt =>
    show (r.openBefore date).date < (r.day date).date
    rw [r.day_date]
    rcases r.openBefore_cases date with ⟨-, -, hlt, -⟩ | ⟨hclosed, -⟩
    · exact hlt
    · rw [hclosed, Date.previous?, if_pos hfirst]
      simp only [Option.getD_some, OpeningDay.closed, Date.lt_def, Date.addDays]
      omega
  case lt_next =>
    show (r.day date).date < _
    rw [r.day_date]
    exact r.lt_next hlast

theorem isBetween_between (hdays : ∀ day, day ∈ r.days ↔ Recorded records sp day)
    {first last : Date} (hlast : last < Date.last) :
    IsBetween records sp r.zone first last (r.between first last true) := by
  constructor
  case sorted => exact Register.between_true_pairwise
  case dates =>
    intro date
    refine ⟨?_, fun hdate => ⟨r.day date, ?_, r.day_date date⟩⟩
    · rintro ⟨d, hd, rfl⟩
      exact ((Register.mem_between_true hlast).mp hd).2
    · rw [Register.mem_between_true hlast, r.day_date]
      exact ⟨rfl, hdate⟩
  case eq_dayOf =>
    intro d hd
    exact ((Register.mem_between_true hlast).mp hd).1.trans (day_eq_dayOf hdays d.date)
  case reversed =>
    intro hlt
    refine List.eq_nil_iff_forall_not_mem.mpr fun d hd => ?_
    obtain ⟨-, hfirst, hle⟩ := (Register.mem_between_true hlast).mp hd
    exact hlt.not_ge (hfirst.trans hle)

theorem register?_eq_some_iff {c : Calendar} : c.register? sp = some r ↔ c.register sp = .ok r := by
  unfold register
  cases c.register? sp <;> simp

theorem represents_of_lookup_eq_none (h : records.lookup sp = none) :
    Represents (ofRecords records) records sp := by
  have hnone := lookup_eq_none_iff_not_mem.mp h
  have hagrees := agrees_ofRecords records sp
  cases hr : (ofRecords records).register? sp with
  | some r =>
    rw [hr] at hagrees
    obtain ⟨⟨first, hfirst, -⟩, -⟩ := hagrees
    cases h.symm.trans hfirst
  | none =>
    have hregister : (ofRecords records).register sp = .error (unavailable sp) := by
      rw [register, hr]
    constructor
    case dayCount =>
      rw [dayCount, hr]
      simp [hnone]
    case adjacentDays_unavailable =>
      intro date
      rw [Calendar.adjacentDays, hregister]
      exact ⟨fun _ => hnone, fun _ => rfl⟩
    case daysBetween_unavailable =>
      intro start stop includeClosed
      rw [Calendar.daysBetween, hregister]
      exact ⟨fun _ => hnone, fun _ => rfl⟩
    case adjacentDays =>
      intro first hfirst
      cases h.symm.trans hfirst
    case daysBetween =>
      intro first hfirst
      cases h.symm.trans hfirst

theorem represents_of_lookup (h : records.lookup sp = some first) :
    Represents (ofRecords records) records sp := by
  obtain ⟨r, hr, hzone, hdays⟩ := exists_register_of_lookup h
  have hsome : ¬ ∀ day, (sp, day) ∉ records := by
    rw [← lookup_eq_none_iff_not_mem, h]
    simp
  have hadjacent := adjacentDays_eq hr
  have hbetween : ∀ start stop includeClosed,
      (ofRecords records).daysBetween sp start stop includeClosed =
        .ok (r.between (r.zone.localDate start) (r.zone.localDate stop) includeClosed) := by
    intro start stop includeClosed
    rw [Calendar.daysBetween, hr]
    rfl
  constructor
  case dayCount =>
    rw [dayCount, register?_eq_some_iff.mpr hr, ncard_recordedDates hdays]
    rfl
  case adjacentDays_unavailable =>
    intro date
    rw [hadjacent]
    exact ⟨nofun, fun hnone => absurd hnone hsome⟩
  case daysBetween_unavailable =>
    intro start stop includeClosed
    rw [hbetween]
    exact ⟨nofun, fun hnone => absurd hnone hsome⟩
  case adjacentDays =>
    intro first' hfirst' date hfirst hlast
    obtain rfl := Option.some.inj (h.symm.trans hfirst')
    exact ⟨_, hadjacent date, hzone ▸ isAdjacent_adjacent hdays hfirst hlast⟩
  case daysBetween =>
    intro first' hfirst' start stop hlast
    obtain rfl := Option.some.inj (h.symm.trans hfirst')
    rw [← hzone] at hlast ⊢
    exact ⟨_, hbetween start stop true, isBetween_between hdays hlast,
      (hbetween start stop false).trans (by rw [Register.between_false hlast])⟩

/-- After any calls a calendar answers for every service point as the map of the last records
does. -/
theorem ofCalls_represents (calls : List Call) (sp : ServicePoint) :
    Represents (ofCalls calls) (calls.flatMap Call.entries) sp := by
  rw [ofCalls_eq]
  cases h : (calls.flatMap Call.entries).lookup sp with
  | none => exact represents_of_lookup_eq_none h
  | some first => exact represents_of_lookup h

/-- A service point that is first recorded as closed on 9 March 2026, then with the night hours of
that date and the day hours of 11 March. -/
def replacedCalls : List Call :=
  [.addDay .zero (.closed ⟨20521⟩ Zone.tokyo), .addDays .zero [.nightHours, .dayHours]]

theorem ofCalls_represents_replacedCalls :
    let records := replacedCalls.flatMap Call.entries
    {date | ∃ day, (.zero, day) ∈ records ∧ day.date = date}.ncard = 2 ∧
    (∃ a, (ofCalls replacedCalls).adjacentDays .zero ⟨20522⟩ = .ok a ∧
      a = ⟨.nightHours, .closed ⟨20522⟩ Zone.tokyo, .dayHours⟩ ∧
      IsAdjacent records .zero Zone.tokyo ⟨20522⟩ a) ∧
    ∃ days, (ofCalls replacedCalls).daysBetween .zero (.ofSecond 1773018000)
        (.ofSecond 1773190800) true = .ok days ∧
      days = [.nightHours, .closed ⟨20522⟩ Zone.tokyo, .dayHours] ∧
      IsBetween records .zero Zone.tokyo ⟨20521⟩ ⟨20523⟩ days := by
  intro records
  have hrepresents := ofCalls_represents replacedCalls .zero
  have hcount : (ofCalls replacedCalls).dayCount .zero = 2 := by decide +kernel
  have hadjacent : (ofCalls replacedCalls).adjacentDays .zero ⟨20522⟩ =
      .ok ⟨.nightHours, .closed ⟨20522⟩ Zone.tokyo, .dayHours⟩ := by decide +kernel
  have hbetween : (ofCalls replacedCalls).daysBetween .zero (.ofSecond 1773018000)
      (.ofSecond 1773190800) true =
        .ok [.nightHours, .closed ⟨20522⟩ Zone.tokyo, .dayHours] := by decide +kernel
  obtain ⟨a, ha, hisAdjacent⟩ :=
    hrepresents.adjacentDays (.closed ⟨20521⟩ Zone.tokyo) rfl ⟨20522⟩ (by decide) (by decide)
  obtain ⟨days, hdays, hisBetween, -⟩ :=
    hrepresents.daysBetween (.closed ⟨20521⟩ Zone.tokyo) rfl (.ofSecond 1773018000)
      (.ofSecond 1773190800) (by decide +kernel)
  obtain rfl := Except.ok.inj (ha.symm.trans hadjacent)
  obtain rfl := Except.ok.inj (hdays.symm.trans hbetween)
  exact ⟨hrepresents.dayCount.symm.trans hcount, ⟨_, ha, rfl, hisAdjacent⟩,
    _, hdays, rfl, hisBetween⟩

end Calendar

end Circulation
