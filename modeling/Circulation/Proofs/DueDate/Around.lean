import Circulation.DueDate
import Circulation.Proofs.Calendar.Reach
import Circulation.Proofs.Timetable.Inner

/-!
# The days around some dates

A service collects the days adjacent to some dates, each date once and open days ahead of closed
ones. Their windows are those of all the adjacent days, so that a timetable of them looks ahead of
every instant of the dates.
-/

namespace Circulation

open OpeningDay
open Timetable (covered)

namespace Service

/-! ## One day more -/

variable {days more : List OpeningDay} {day e : OpeningDay}

theorem mem_keepDay (h : e ∈ keepDay days day) : e = day ∨ e ∈ days := by
  fun_induction keepDay days day <;> grind

theorem keepDay_pairwise (h : days.Pairwise fun a b => a.date < b.date) :
    (keepDay days day).Pairwise fun a b => a.date < b.date := by
  fun_induction keepDay days day with
  | case1 => simp
  | case2 d rest hlt =>
    refine List.pairwise_cons.mpr ⟨fun e he => ?_, h⟩
    rcases List.mem_cons.mp he with rfl | he
    · exact hlt
    · exact hlt.trans (List.rel_of_pairwise_cons h he)
  | case3 d rest hlt heq =>
    obtain ⟨hd, hrest⟩ := List.pairwise_cons.mp h
    refine List.pairwise_cons.mpr ⟨fun e he => ?_, hrest⟩
    split
    · exact hd e he
    · exact heq ▸ hd e he
  | case4 d rest hlt hne ih =>
    obtain ⟨hd, hrest⟩ := List.pairwise_cons.mp h
    refine List.pairwise_cons.mpr ⟨fun e he => ?_, ih hrest⟩
    rcases mem_keepDay he with rfl | he
    · exact lt_of_le_of_ne (le_of_not_gt hlt) (Ne.symm hne)
    · exact hd e he

/-- The day of the date that is kept is open if either the new day or one already there is. -/
theorem exists_mem_keepDay (h : e = day ∨ e ∈ days) :
    ∃ d ∈ keepDay days day, d.date = e.date ∧ (e.isOpen = true → d.isOpen = true) := by
  fun_induction keepDay days day with
  | case1 =>
    obtain rfl : e = day := by simpa using h
    exact ⟨e, List.mem_cons_self, rfl, id⟩
  | case2 d rest hlt => exact ⟨e, by simpa using h, rfl, id⟩
  | case3 d rest hlt heq =>
    rcases h with rfl | h
    · refine ⟨_, List.mem_cons_self, ?_⟩
      split
      · exact ⟨heq.symm, fun _ => ‹_›⟩
      · exact ⟨rfl, id⟩
    · rcases List.mem_cons.mp h with rfl | h
      · refine ⟨_, List.mem_cons_self, ?_⟩
        split
        · exact ⟨rfl, id⟩
        · exact ⟨heq, fun hopen => absurd hopen ‹_›⟩
      · exact ⟨e, List.mem_cons_of_mem _ h, rfl, id⟩
  | case4 d rest hlt hne ih =>
    rcases h with h | h
    · obtain ⟨k, hk, hkept⟩ := ih (.inl h)
      exact ⟨k, List.mem_cons_of_mem _ hk, hkept⟩
    · rcases List.mem_cons.mp h with rfl | h
      · exact ⟨e, List.mem_cons_self, rfl, id⟩
      · obtain ⟨k, hk, hkept⟩ := ih (.inr h)
        exact ⟨k, List.mem_cons_of_mem _ hk, hkept⟩

/-! ## All days -/

/-- The second list holds the days of the first in order, one for each date and an open one if there
is one. -/
structure Collects (days kept : List OpeningDay) : Prop where
  sorted : kept.Pairwise fun a b => a.date < b.date
  subset : ∀ d ∈ kept, d ∈ days
  covers : ∀ d ∈ days, ∃ e ∈ kept, e.date = d.date ∧ (d.isOpen = true → e.isOpen = true)

theorem Collects.keepDay {kept : List OpeningDay} (h : Collects days kept) (day : OpeningDay) :
    Collects (days ++ [day]) (keepDay kept day) := by
  refine ⟨keepDay_pairwise h.sorted, fun d hd => ?_, fun d hd => ?_⟩
  · rcases mem_keepDay hd with rfl | hd
    · exact List.mem_append_right _ List.mem_cons_self
    · exact List.mem_append_left _ (h.subset d hd)
  · rcases List.mem_append.mp hd with hd | hd
    · obtain ⟨e, he, hdate, hopen⟩ := h.covers d hd
      obtain ⟨k, hk, hkdate, hkopen⟩ :=
        exists_mem_keepDay (show e = day ∨ e ∈ kept from .inr he)
      exact ⟨k, hk, hkdate.trans hdate, hkopen ∘ hopen⟩
    · exact exists_mem_keepDay (.inl (List.mem_singleton.mp hd))

theorem collects_foldl (days : List OpeningDay) :
    Collects days (days.foldl Service.keepDay []) := by
  induction days using List.reverseRecOn with
  | nil => exact ⟨.nil, by simp, by simp⟩
  | append_singleton days day ih =>
    rw [List.foldl_append]
    exact ih.keepDay day

/-! ## The days of the calendar -/

variable {s : Service} {sp : ServicePoint} {r : Register} {dates : List Date} {z : Zone}
  {offset shift : Int} {w : Span .utc}

theorem daysAround_eq (hr : s.calendar.register sp = .ok r) (dates : List Date) :
    s.daysAround sp dates =
      .ok ((dates.flatMap fun date => (r.adjacent date).days).foldl keepDay []) := by
  have hadjacent : s.calendar.adjacentDays sp = fun date => pure (r.adjacent date) := by
    funext date
    exact Calendar.adjacentDays_eq hr date
  unfold daysAround
  rw [hadjacent, List.mapM_pure]
  show Except.ok (((dates.map r.adjacent).flatMap (·.days)).foldl keepDay []) = _
  rw [List.flatMap_map]

theorem mem_windowsOf_collected (hlast : ∀ date ∈ dates, date < Date.last)
    (h : Collects (dates.flatMap fun date => (r.adjacent date).days) days) :
    w ∈ windowsOf {d | d ∈ days} ↔
      ∃ date ∈ dates, w ∈ windowsOf {d | d ∈ (r.adjacent date).days} := by
  refine ⟨?_, ?_⟩
  · rintro ⟨d, hd, hw⟩
    obtain ⟨date, hdate, hd⟩ := List.mem_flatMap.mp (h.subset d hd)
    exact ⟨date, hdate, d, hd, hw⟩
  · rintro ⟨date, hdate, d, hd, hw⟩
    have hopen := hw.isOpen
    obtain ⟨e, he, hed, heopen⟩ := h.covers d (List.mem_flatMap.mpr ⟨date, hdate, hd⟩)
    obtain ⟨date', hdate', he'⟩ := List.mem_flatMap.mp (h.subset e he)
    have hmem := Register.mem_of_mem_adjacent (hlast date hdate) hd hopen
    have hmem' := Register.mem_of_mem_adjacent (hlast date' hdate') he' (heopen hopen)
    obtain rfl := Register.eq_of_date_eq hmem hmem' hed.symm
    exact ⟨d, he, hw⟩

/-- The timetable of the days around some dates, which are recorded in a zone that need not be the
service's: its windows are those of all days adjacent to the dates, and it holds each instant whose
date in the service's zone is one of them. -/
structure Shows (s : Service) (r : Register) (z : Zone) (dates : List Date)
    (days : List OpeningDay) (t : Timetable) : Prop where
  ofDays : Timetable.ofDays days s.zone = .ok t
  inner : ∀ d ∈ days, d.IsInner z
  near : ∀ w, w ∈ windowsOf {d | d ∈ days} ↔
    ∃ date ∈ dates, w ∈ windowsOf {d | d ∈ (r.adjacent date).days}
  held : ∀ m, s.zone.localDate m ∈ dates → m ∈ covered t.intervals

theorem exists_shows (hz : z.IsFixed offset) (hs : s.zone.IsFixed shift)
    (hr : s.calendar.register sp = .ok r) (hzone : r.zone = z) (hdays : ∀ d ∈ r.days, d.zone = z)
    (haway : ∀ date ∈ dates, (r.adjacent date).AwayFromEnds) :
    ∃ days t, s.daysAround sp dates = .ok days ∧ Shows s r z dates days t := by
  have hcollects := collects_foldl (dates.flatMap fun date => (r.adjacent date).days)
  have hlast : ∀ date ∈ dates, date < Date.last := fun date hdate =>
    Register.lt_last_of_awayFromEnds (haway date hdate)
  rw [daysAround_eq hr]
  generalize (dates.flatMap fun date => (r.adjacent date).days).foldl keepDay [] = kept at *
  have hinner : ∀ d ∈ kept, d.IsInner z := by
    intro d hd
    obtain ⟨date, hdate, hd⟩ := List.mem_flatMap.mp (hcollects.subset d hd)
    exact Register.isInner_of_mem_adjacent hzone hdays (haway date hdate) hd
  obtain ⟨t, ht⟩ := Timetable.exists_ofDays_of_fixed hz hs hinner
  refine ⟨kept, t, rfl, ht, hinner, fun w => mem_windowsOf_collected hlast hcollects,
    fun m hm => ?_⟩
  obtain ⟨e, he, hdate, -⟩ :=
    hcollects.covers _ (List.mem_flatMap.mpr ⟨_, hm, r.day_mem_adjacent _⟩)
  rw [Register.day_date] at hdate
  exact Timetable.mem_covered_of_localDate hz hs hinner ht he hdate.symm

/-- The timetable that a strategy sees in the zone of the records: it looks ahead of each instant
whose date is of interest as well. -/
structure Sees (s : Service) (r : Register) (dates : List Date) (days : List OpeningDay)
    (t : Timetable) : Prop extends Shows s r s.zone dates days t where
  ahead : ∀ m, s.zone.localDate m ∈ dates →
    LooksAhead s.zone m (windowsOf {d | d ∈ days}) (windowsOf {d | d ∈ r.days})

theorem exists_sees (hz : s.zone.IsFixed offset) (hr : s.calendar.register sp = .ok r)
    (hzone : r.zone = s.zone) (hdays : ∀ d ∈ r.days, d.zone = s.zone)
    (haway : ∀ date ∈ dates, (r.adjacent date).AwayFromEnds) :
    ∃ days t, s.daysAround sp dates = .ok days ∧ Sees s r dates days t := by
  obtain ⟨days, t, haround, hshows⟩ := exists_shows hz hz hr hzone hdays haway
  refine ⟨days, t, haround, hshows, fun m hm => ?_⟩
  refine (Register.looksAhead_adjacent hz hzone hdays (haway _ hm)).mono ?_ ?_
  · intro w hw
    exact (hshows.near w).mpr ⟨_, hm, hw⟩
  · rintro w hw
    obtain ⟨date, hdate, d, hd, hspan⟩ := (hshows.near w).mp hw
    exact ⟨d, Register.mem_of_mem_adjacent
      (Register.lt_last_of_awayFromEnds (haway date hdate)) hd hspan.isOpen, hspan⟩

end Service

end Circulation
