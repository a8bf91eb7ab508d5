import Circulation.Proofs.Timetable.Component
import Circulation.Proofs.Timetable.Interval

/-!
# The open intervals around a moment

In a stretch filled with spans, a moment in one of the spans is shown in that span, and around any
other moment the open intervals before and after it are the spans that stop before and start after
it.
-/

namespace Circulation

namespace Timetable

variable {t : Timetable} {cursor finish : Instant} {spans : List (Span .utc)} {m : Instant}
  {p : Position}

theorem previousOpen?_eq (p : Position) :
    p.previousOpen? = (p.before.reverse.filter (·.isOpen)).getLast? := by
  rw [Position.previousOpen?, List.filter_reverse, List.getLast?_reverse, List.head?_filter]

theorem nextOpen?_eq (p : Position) : p.nextOpen? = p.openAfter.head? := by
  rw [Position.nextOpen?, Position.openAfter, List.head?_filter]

theorem exists_position (h : Tiled t.intervals) (hm : m ∈ covered t.intervals) :
    ∃ p, t.position? m = some p := by
  cases hp : t.position? m with
  | none => exact absurd hm ((position?_eq_none_iff h).mp hp)
  | some p => exact ⟨p, rfl⟩

theorem exists_position_here (h : Tiled t.intervals) {i : Interval} (hi : i ∈ t.intervals)
    (hm : m ∈ i.toSpan) : ∃ p, t.position? m = some p ∧ p.here = i := by
  obtain ⟨before, after, heq⟩ := List.append_of_mem hi
  exact ⟨⟨before.reverse, i, after⟩, (position?_eq_some_iff h).mpr ⟨by simpa using heq, hm⟩, rfl⟩

/-- A moment lies in one interval only. -/
theorem Tiled.eq_of_mem (h : Tiled t.intervals) {i j : Interval} (hi : i ∈ t.intervals)
    (hj : j ∈ t.intervals) (hmi : m ∈ i.toSpan) (hmj : m ∈ j.toSpan) : i = j := by
  obtain ⟨p, hp, rfl⟩ := exists_position_here h hi hmi
  obtain ⟨q, hq, rfl⟩ := exists_position_here h hj hmj
  rw [Option.some.inj (hp.symm.trans hq)]

/-- A moment in one of the spans is shown in that span, as an open interval. -/
theorem Fits.here_eq (h : Fits cursor finish spans) (ht : t.intervals = fill cursor finish spans)
    (hp : t.position? m = some p) {s : Span .utc} (hs : s ∈ spans) (hm : m ∈ s) :
    p.here = Interval.ofOpen s := by
  have htiled : Tiled t.intervals := ht ▸ h.tiled_fill
  obtain ⟨heq, -⟩ := (position?_eq_some_iff htiled).mp hp
  obtain ⟨hbefore, hafter⟩ := htiled.around hp
  have hmem : Interval.ofOpen s ∈ t.intervals := by
    have hmap := List.mem_map_of_mem (f := Interval.ofOpen) hs
    rw [← filter_isOpen_fill cursor finish spans, ← ht] at hmap
    exact List.mem_of_mem_filter hmap
  rw [heq, List.mem_append, List.mem_reverse, List.mem_cons] at hmem
  rcases hmem with hi | hi | hi
  · exact absurd hm.2 (hbefore _ hi).not_gt
  · exact hi.symm
  · exact absurd hm.1 (hafter _ hi).not_ge

/-- A moment in none of the spans is shown in a closed interval, between the spans that stop before
it and those that start after it. -/
theorem Fits.around (h : Fits cursor finish spans) (ht : t.intervals = fill cursor finish spans)
    (hp : t.position? m = some p) (hm : m ∉ Span.union spans) :
    p.here.isOpen = false ∧
      p.previousOpen? = (spans.filter (·.stop ≤ m)).getLast?.map Interval.ofOpen ∧
      p.openAfter = (spans.filter (m < ·.start)).map Interval.ofOpen := by
  have htiled : Tiled t.intervals := ht ▸ h.tiled_fill
  obtain ⟨heq, hmem⟩ := (position?_eq_some_iff htiled).mp hp
  obtain ⟨hbefore, hafter⟩ := htiled.around hp
  rw [ht] at heq
  have hclosed : p.here.isOpen = false := by
    by_contra hopen
    have hhere : p.here ∈ fill cursor finish spans := by
      rw [heq]
      exact List.mem_append_right _ List.mem_cons_self
    exact hm ((mem_fill_isOpen_iff cursor finish).mp ⟨p.here, hhere, by simpa using hopen, hmem⟩)
  have hfilter := filter_isOpen_fill cursor finish spans
  rw [heq, List.filter_append, List.filter_cons_of_neg (by simp [hclosed])] at hfilter
  obtain ⟨early, late, rfl, hearly, hlate⟩ := List.map_eq_append_iff.mp hfilter.symm
  have hstop : ∀ s ∈ early, s.stop ≤ m := fun s hs => by
    have hs' := List.mem_map_of_mem (f := Interval.ofOpen) hs
    rw [hearly] at hs'
    exact hbefore _ (List.mem_reverse.mp (List.mem_of_mem_filter hs'))
  have hstart : ∀ s ∈ late, m < s.start := fun s hs => by
    have hs' := List.mem_map_of_mem (f := Interval.ofOpen) hs
    rw [hlate] at hs'
    exact hafter _ (List.mem_of_mem_filter hs')
  obtain ⟨hfirst, hlast⟩ := Span.filter_split h.start_lt hstop hstart
  refine ⟨hclosed, ?_, ?_⟩
  · rw [previousOpen?_eq, ← hearly, hfirst, List.getLast?_map]
  · rw [Position.openAfter, ← hlate, hlast]

end Timetable

end Circulation
