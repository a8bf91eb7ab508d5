import Circulation.Proofs.Timetable.Component

/-!
# Merged spans as a normal form

Spans that lie apart, none of which stops before it starts, are determined by what they reach: they
start at the moments reached but not entered, and stop at those reached but not held. Merging
keeps what spans reach, enter and hold. So merged spans depend on the set of the spans only, not on
their order, and merging them again leaves them as they are, although empty spans may be among them,
of which the union says nothing.
-/

namespace Circulation

namespace Span

variable {f : Frame} {spans others : List (Span f)} {m : Moment f}

/-- The moments from the start of a span to its stop, both included. -/
def reached (spans : List (Span f)) : Set (Moment f) := {m | ∃ s ∈ spans, s.start ≤ m ∧ m ≤ s.stop}

/-- The moments after the start of a span, up to and with its stop. -/
def entered (spans : List (Span f)) : Set (Moment f) := {m | ∃ s ∈ spans, s.start < m ∧ m ≤ s.stop}

/-! ## What merging keeps -/

theorem reached_merge (spans : List (Span f)) : reached (merge spans) = reached spans := by
  ext m
  refine exists_merge_iff (fun _ _ => join_iff le_trans le_max_iff fun {_ t} hst => ?_) spans
  exact (le_total m t).imp_right hst.trans

theorem entered_merge (spans : List (Span f)) : entered (merge spans) = entered spans := by
  ext m
  refine exists_merge_iff
    (fun _ _ => join_iff lt_of_le_of_lt le_max_iff fun {_ t} hst => ?_) spans
  exact (le_or_gt m t).imp_right hst.trans_lt

theorem start_le_of_mem_merge (h : ∀ s ∈ spans, s.start ≤ s.stop) :
    ∀ s ∈ merge spans, s.start ≤ s.stop :=
  forall_mem_merge (fun _ _ ha _ => ha.trans (le_max_left _ _)) h

/-! ## Starts and stops of spans that lie apart -/

theorem Apart.mem_starts_iff (h : Apart spans) (hle : ∀ s ∈ spans, s.start ≤ s.stop) :
    m ∈ spans.map (·.start) ↔ m ∈ reached spans ∧ m ∉ entered spans := by
  rw [List.mem_map]
  refine ⟨?_, ?_⟩
  · rintro ⟨s, hs, rfl⟩
    refine ⟨⟨s, hs, le_rfl, hle s hs⟩, ?_⟩
    rintro ⟨t, ht, hts, hst⟩
    rcases h.rel hs ht with rfl | hlt | hlt
    · exact lt_irrefl _ hts
    · exact lt_asymm hts ((hle s hs).trans_lt hlt)
    · exact hst.not_gt hlt
  · rintro ⟨⟨s, hs, hsm, hms⟩, hout⟩
    exact ⟨s, hs, hsm.eq_of_not_lt fun hlt => hout ⟨s, hs, hlt, hms⟩⟩

theorem Apart.mem_stops_iff (h : Apart spans) (hle : ∀ s ∈ spans, s.start ≤ s.stop) :
    m ∈ spans.map (·.stop) ↔ m ∈ reached spans ∧ m ∉ union spans := by
  rw [List.mem_map]
  refine ⟨?_, ?_⟩
  · rintro ⟨s, hs, rfl⟩
    refine ⟨⟨s, hs, hle s hs, le_rfl⟩, ?_⟩
    rintro ⟨t, ht, hts, hst⟩
    rcases h.rel hs ht with rfl | hlt | hlt
    · exact lt_irrefl _ hst
    · exact hts.not_gt hlt
    · exact lt_asymm hst (hlt.trans_le (hle s hs))
  · rintro ⟨⟨s, hs, hsm, hms⟩, hout⟩
    exact ⟨s, hs, (hms.eq_of_not_lt fun hlt => hout ⟨s, hs, hsm, hlt⟩).symm⟩

theorem Apart.pairwise_start_lt (h : Apart spans) (hle : ∀ s ∈ spans, s.start ≤ s.stop) :
    spans.Pairwise fun a b => a.start < b.start :=
  h.imp_of_mem fun ha _ hab => (hle _ ha).trans_lt hab

theorem Apart.pairwise_stop_lt (h : Apart spans) (hle : ∀ s ∈ spans, s.start ≤ s.stop) :
    spans.Pairwise fun a b => a.stop < b.stop :=
  h.imp_of_mem fun _ hb hab => hab.trans_le (hle _ hb)

theorem zipWith_start_stop (spans : List (Span f)) :
    List.zipWith Span.mk (spans.map (·.start)) (spans.map (·.stop)) = spans := by
  rw [List.zipWith_map, List.zipWith_self, List.map_id']

/-- Spans that lie apart are determined by what they reach, enter and hold. -/
theorem Apart.eq_of_reached_eq (h : Apart spans) (h' : Apart others)
    (hle : ∀ s ∈ spans, s.start ≤ s.stop) (hle' : ∀ s ∈ others, s.start ≤ s.stop)
    (hreached : reached spans = reached others) (hentered : entered spans = entered others)
    (hunion : union spans = union others) : spans = others := by
  have hstarts : spans.map (·.start) = others.map (·.start) := by
    have hsorted := List.pairwise_map.mpr (h.pairwise_start_lt hle)
    refine hsorted.eq_of_mem_iff (List.pairwise_map.mpr (h'.pairwise_start_lt hle')) fun m => ?_
    rw [h.mem_starts_iff hle, h'.mem_starts_iff hle', hreached, hentered]
  have hstops : spans.map (·.stop) = others.map (·.stop) := by
    have hsorted := List.pairwise_map.mpr (h.pairwise_stop_lt hle)
    refine hsorted.eq_of_mem_iff (List.pairwise_map.mpr (h'.pairwise_stop_lt hle')) fun m => ?_
    rw [h.mem_stops_iff hle, h'.mem_stops_iff hle', hreached, hunion]
  rw [← zipWith_start_stop spans, hstarts, hstops, zipWith_start_stop]

/-! ## Merging -/

/-- Spans that lie apart are merged already. -/
theorem Apart.merge_eq_self (h : Apart spans) (hle : ∀ s ∈ spans, s.start ≤ s.stop) :
    merge spans = spans :=
  (merge_apart spans).eq_of_reached_eq h (start_le_of_mem_merge hle) hle (reached_merge spans)
    (entered_merge spans) (union_merge spans)

theorem merge_congr (hle : ∀ s ∈ spans, s.start ≤ s.stop) (hmem : ∀ s, s ∈ others ↔ s ∈ spans) :
    merge others = merge spans := by
  have hle' : ∀ s ∈ others, s.start ≤ s.stop := fun s hs => hle s ((hmem s).mp hs)
  refine (merge_apart others).eq_of_reached_eq (merge_apart spans) (start_le_of_mem_merge hle')
    (start_le_of_mem_merge hle) ?_ ?_ ?_
  · rw [reached_merge, reached_merge]
    simp only [reached, hmem]
  · rw [entered_merge, entered_merge]
    simp only [entered, hmem]
  · rw [union_merge, union_merge]
    simp only [union, hmem]

/-- Merging keeps the moments of spans, whatever the spans. If none of them stops before it starts,
the merged spans are in order and lie apart, every order of the spans gives the same ones, and
merging them again changes nothing. -/
theorem merge_normalForm (spans : List (Span f)) :
    union (merge spans) = union spans ∧
    ((∀ s ∈ spans, s.start ≤ s.stop) →
      ((merge spans).Pairwise fun a b => a.start < b.start) ∧ Apart (merge spans) ∧
      (∀ others, others.Perm spans → merge others = merge spans) ∧
      merge (merge spans) = merge spans) := by
  refine ⟨union_merge spans, fun hle => ?_⟩
  have hmerged := start_le_of_mem_merge hle
  refine ⟨(merge_apart spans).pairwise_start_lt hmerged, merge_apart spans, fun others hperm => ?_,
    (merge_apart spans).merge_eq_self hmerged⟩
  exact merge_congr hle fun _ => hperm.mem_iff

/-- Spans that touch, lie within one another, start together or are empty, out of order. -/
def tangledSpans : List (Span .utc) :=
  [⟨.ofSecond 40, .ofSecond 40⟩, ⟨.ofSecond 20, .ofSecond 30⟩, ⟨.ofSecond 0, .ofSecond 20⟩,
    ⟨.ofSecond 5, .ofSecond 10⟩, ⟨.ofSecond 0, .ofSecond 0⟩]

theorem merge_normalForm_tangled :
    (∀ s ∈ tangledSpans, s.start ≤ s.stop) ∧ Apart (merge tangledSpans) ∧
    merge tangledSpans.reverse = merge tangledSpans ∧
    merge (merge tangledSpans) = merge tangledSpans := by
  have hle : ∀ s ∈ tangledSpans, s.start ≤ s.stop := by decide
  obtain ⟨-, hapart, hperm, hagain⟩ := (merge_normalForm tangledSpans).2 hle
  exact ⟨hle, hapart, hperm _ (List.reverse_perm _), hagain⟩

end Span

end Circulation
