import Circulation.Proofs.Timetable.Coverage

/-!
# Timetables in a zone of one offset

Days of one such zone, away from the first and the last date, always have a timetable, in that zone
and in any other one of one offset. It holds every instant of their dates on the timetable's clock,
and no window in it is empty or reversed.
-/

namespace Circulation

open OpeningDay

theorem Moment.at_midnight_le_iff {l : LocalTime} {d : Date} : d.at .midnight ≤ l ↔ d ≤ l.date := by
  simp only [Moment.le_def, Date.le_def, Moment.date, Date.at, TimeOfDay.midnight]
  omega

namespace Timetable

variable {days : List OpeningDay} {z zone : Zone} {offset shift : Int} {t : Timetable} {m : Instant}

theorem upright_of_inner (hz : z.IsFixed offset) (h : ∀ d ∈ days, d.IsInner z) :
    Upright days := by
  rintro w ⟨d, hd, hw⟩
  exact hw.start_lt hz (h d hd).zone_eq (h d hd).first_lt

theorem exists_ofDays_of_fixed (hz : z.IsFixed offset) (hzone : zone.IsFixed shift)
    (h : ∀ d ∈ days, d.IsInner z) : ∃ t, ofDays days zone = .ok t := by
  by_cases hne : days = []
  · rw [hne]
    exact ⟨_, rfl⟩
  obtain ⟨first, last, hrange⟩ := exists_dateRange hne
  obtain ⟨⟨⟨d, hd, rfl⟩, -⟩, ⟨e, he, rfl⟩, -⟩ := dateRange_spec hrange
  obtain ⟨spans, hspans⟩ := exists_openTime fun d hd => (h d hd).exists_openSpans hz
  have hstart : ∃ start, zone.startOfDay d.date = .ok start := by
    refine ⟨_, hzone.resolve_of_date ?_ ?_⟩
    · rw [Date.date_at]
      exact (h d hd).first_lt
    · rw [Date.date_at]
      exact (h d hd).date_lt_last
  have hstop : ∃ stop, endOfCoverage zone e.date = .ok stop := by
    rw [endOfCoverage_eq (h e he).date_lt_last]
    refine ⟨_, hzone.resolve_of_date ?_ ?_⟩
    · have hfirst := (h e he).first_lt
      rw [Date.date_at, Date.lt_def] at *
      simp only [Date.addDays]
      omega
    · rw [Date.date_at]
      exact (h e he).lt_last
  obtain ⟨start, hstart⟩ := hstart
  obtain ⟨stop, hstop⟩ := hstop
  exact ⟨_, (ofDays_eq_ok_iff hrange).mpr ⟨spans, start, stop, hspans, hstart, hstop, rfl⟩⟩

theorem exists_ofDays_of_inner (hz : z.IsFixed offset) (h : ∀ d ∈ days, d.IsInner z) :
    ∃ t, ofDays days z = .ok t :=
  exists_ofDays_of_fixed hz hz h

/-- The timetable holds each instant whose date is one of the days'. -/
theorem mem_covered_of_localDate (hz : z.IsFixed offset) (hzone : zone.IsFixed shift)
    (h : ∀ d ∈ days, d.IsInner z) (ht : ofDays days zone = .ok t) {d : OpeningDay} (hd : d ∈ days)
    (hm : zone.localDate m = d.date) : m ∈ covered t.intervals := by
  obtain ⟨spans, range, -, hfits, rfl, hcover⟩ :=
    exists_fill_of_ofDays ht (upright_of_inner hz h)
  obtain ⟨⟨first, start, hfirst, hstart, hleast⟩, last, stop, hlast, hstop, hgreatest⟩ :=
    hcover (List.ne_nil_of_mem hd) fun e he => (h e he).date_lt_last
  have hmidnight : ∀ {x : Date} {i : Instant}, Date.first < x → zone.startOfDay x = .ok i →
      zone.toLocal i = x.at .midnight := by
    intro x i hx hi
    have hupper := hzone.upper
    refine hzone.toLocal_of_resolve ?_ hi
    rw [Date.lt_def] at hx
    simp only [Date.at, TimeOfDay.midnight]
    omega
  rw [hfits.mem_covered_fill]
  refine ⟨?_, ?_⟩
  · obtain ⟨e, he, rfl⟩ := hfirst.1
    refine (hleast.2 (Set.mem_insert _ _)).trans (hzone.toLocal_le_iff.mp ?_)
    rw [hmidnight (h e he).first_lt hstart, Moment.at_midnight_le_iff]
    exact (hfirst.2 ⟨d, hd, rfl⟩).trans hm.ge
  · obtain ⟨e, he, rfl⟩ := hlast.1
    have hle : d.date ≤ e.date := hlast.2 ⟨d, hd, rfl⟩
    have hlt : zone.localDate m < e.date.addDays 1 := by
      rw [hm, Date.lt_def]
      rw [Date.le_def] at hle
      simp only [Date.addDays]
      omega
    refine lt_of_lt_of_le (hzone.toLocal_lt_iff.mp (lt_of_not_ge fun hge => ?_))
      (hgreatest.2 (Set.mem_insert _ _))
    rw [hmidnight ((h d hd).first_lt.trans (hm ▸ hlt)) hstop, Moment.at_midnight_le_iff] at hge
    exact hge.not_gt hlt

theorem mem_covered_of_date (hz : z.IsFixed offset) (h : ∀ d ∈ days, d.IsInner z)
    (ht : ofDays days z = .ok t) {d : OpeningDay} (hd : d ∈ days) (hm : z.localDate m = d.date) :
    m ∈ covered t.intervals :=
  mem_covered_of_localDate hz hz h ht hd hm

end Timetable

end Circulation
