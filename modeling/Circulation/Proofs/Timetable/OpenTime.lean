import Circulation.Proofs.Opening.Window
import Circulation.Proofs.Timetable.Component
import Circulation.Timetable.Basic

/-!
# Open time

The merged open time of some days is made of spans that lie apart and hold just the moments of the
days' windows. It depends on which days there are and not on their order.
-/

namespace Circulation

open OpeningDay

namespace Timetable

variable {days : List OpeningDay} {spans : List (Span .utc)}

/-- No window of the days is empty or reversed. -/
def Upright (days : List OpeningDay) : Prop := ∀ w ∈ windowsOf {d | d ∈ days}, w.start < w.stop

theorem mem_windowsOf_of_mapM {lists : List (List (Span .utc))}
    (h : days.mapM openSpans = .ok lists) {w : Span .utc} :
    w ∈ windowsOf {d | d ∈ days} ↔ w ∈ lists.flatten := by
  simp only [List.mem_flatten, Result.mem_of_mapM_eq_ok h, mem_windowsOf, HasSpan]
  refine ⟨?_, ?_⟩
  · rintro ⟨d, hd, l, hl, hw⟩
    exact ⟨l, ⟨d, hd, hl⟩, hw⟩
  · rintro ⟨l, ⟨d, hd, hl⟩, hw⟩
    exact ⟨d, hd, l, hl, hw⟩

/-- The merged open time comes from a list of all windows. -/
theorem exists_windows_of_openTime (h : openTime days = .ok spans) :
    ∃ all, (∀ w, w ∈ all ↔ w ∈ windowsOf {d | d ∈ days}) ∧ spans = Span.merge all := by
  unfold openTime at h
  simp only [Result.bind_eq_ok_iff, Result.pure_eq_ok_iff] at h
  obtain ⟨lists, hlists, rfl⟩ := h
  exact ⟨lists.flatten, fun w => (mem_windowsOf_of_mapM hlists).symm, rfl⟩

theorem union_of_openTime (h : openTime days = .ok spans) :
    Span.union spans = openMoments {d | d ∈ days} := by
  obtain ⟨all, hall, rfl⟩ := exists_windows_of_openTime h
  ext m
  simp only [Span.union_merge, Span.mem_union, mem_openMoments, hall]

theorem apart_of_openTime (h : openTime days = .ok spans) : Span.Apart spans := by
  obtain ⟨all, -, rfl⟩ := exists_windows_of_openTime h
  exact Span.merge_apart all

theorem start_lt_of_openTime (h : openTime days = .ok spans) (hup : Upright days) :
    ∀ s ∈ spans, s.start < s.stop := by
  obtain ⟨all, hall, rfl⟩ := exists_windows_of_openTime h
  exact Span.start_lt_of_mem_merge fun w hw => hup w ((hall w).mp hw)

theorem exists_openTime (h : ∀ d ∈ days, ∃ l, d.openSpans = .ok l) :
    ∃ spans, openTime days = .ok spans := by
  obtain ⟨lists, hlists⟩ := Result.exists_mapM_eq_ok h
  unfold openTime
  rw [hlists]
  exact ⟨_, rfl⟩

/-- The same days in any order and number have the same open time. -/
theorem openTime_congr {others : List OpeningDay} (h : openTime days = .ok spans)
    (hup : Upright days) (hmem : ∀ d, d ∈ others ↔ d ∈ days) : openTime others = .ok spans := by
  have hset : {d | d ∈ others} = {d | d ∈ days} := Set.ext hmem
  have hup' : Upright others := by
    unfold Upright
    rwa [hset]
  obtain ⟨spans', h'⟩ : ∃ spans', openTime others = .ok spans' := by
    unfold openTime at h
    obtain ⟨lists, hlists, -⟩ := Result.bind_eq_ok_iff.mp h
    refine exists_openTime fun d hd => ?_
    obtain ⟨l, -, hl⟩ := Result.exists_of_mapM_eq_ok hlists ((hmem d).mp hd)
    exact ⟨l, hl⟩
  rw [h', (apart_of_openTime h').eq_of_union_eq (apart_of_openTime h)
    (start_lt_of_openTime h' hup') (start_lt_of_openTime h hup)]
  rw [union_of_openTime h', union_of_openTime h, hset]

theorem upright_of_mapM {lists : List (List (Span .utc))} (h : days.mapM openSpans = .ok lists)
    (hlt : ∀ l ∈ lists, ∀ w ∈ l, w.start < w.stop) : Upright days := by
  intro w hw
  obtain ⟨l, hl, hw⟩ := List.mem_flatten.mp ((mem_windowsOf_of_mapM h).mp hw)
  exact hlt l hl w hw

end Timetable

end Circulation
