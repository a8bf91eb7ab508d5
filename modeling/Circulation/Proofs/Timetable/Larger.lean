import Circulation.Proofs.Timetable.Component

/-!
# Components of a larger set

A component holds every run that it meets. Where a set grows, the components that meet are
therefore nested: they stop together unless the smaller one stops inside the larger set, and after a
moment of neither set they start together as far as the sets agree.
-/

namespace Circulation

namespace Span

variable {f : Frame} {u v : Set (Moment f)} {m y : Moment f} {c d s : Span f}
  {all : List (Span f)}

/-! ## Runs and components -/

/-- A component holds every run of its set that it meets. -/
theorem IsComponent.holds (hc : IsComponent u c) (hs : IsRun u s) (hmc : m ∈ c) (hms : m ∈ s) :
    c.start ≤ s.start ∧ s.stop ≤ c.stop := by
  have hjoin : IsRun u ⟨min c.start s.start, max c.stop s.stop⟩ := by
    refine ⟨(min_le_left _ _).trans_lt (hc.start_lt.trans_le (le_max_left _ _)), ?_⟩
    rintro x ⟨hstart, hstop⟩
    rcases le_total x m with hxm | hmx
    · rcases min_le_iff.mp hstart with hcx | hsx
      · exact hc.subset x ⟨hcx, hxm.trans_lt hmc.2⟩
      · exact hs.subset x ⟨hsx, hxm.trans_lt hms.2⟩
    · rcases lt_max_iff.mp hstop with hxc | hxs
      · exact hc.subset x ⟨hmc.1.trans hmx, hxc⟩
      · exact hs.subset x ⟨hms.1.trans hmx, hxs⟩
  have heq := hc.maximal _ hjoin fun x hx =>
    ⟨(min_le_left _ _).trans hx.1, hx.2.trans_le (le_max_left _ _)⟩
  rw [← heq]
  exact ⟨min_le_right _ _, le_max_right _ _⟩

theorem isComponent_iff (hn : ∀ w ∈ all, w.start < w.stop) :
    IsComponent (union all) c ↔ c ∈ merge all := by
  rw [← union_merge, (merge_apart all).mem_iff_isComponent (start_lt_of_mem_merge hn)]

theorem IsComponent.stop_notMem (hc : IsComponent (union all) c)
    (hn : ∀ w ∈ all, w.start < w.stop) : c.stop ∉ union all := by
  rw [← union_merge]
  exact (merge_apart all).stop_notMem_union (start_lt_of_mem_merge hn) ((isComponent_iff hn).mp hc)

theorem exists_component_of_isRun (hn : ∀ w ∈ all, w.start < w.stop) (hs : IsRun (union all) s) :
    ∃ c, IsComponent (union all) c ∧ c.start ≤ s.start ∧ s.stop ≤ c.stop := by
  rw [← union_merge] at hs
  obtain ⟨c, hc, hle⟩ := (merge_apart all).exists_of_isRun (start_lt_of_mem_merge hn) hs
  exact ⟨c, (isComponent_iff hn).mpr hc, hle⟩

theorem exists_component_of_mem (hn : ∀ w ∈ all, w.start < w.stop) (hm : m ∈ union all) :
    ∃ c, IsComponent (union all) c ∧ m ∈ c := by
  rw [← union_merge] at hm
  obtain ⟨c, hc, hmc⟩ := hm
  exact ⟨c, (isComponent_iff hn).mpr hc, hmc⟩

/-! ## Growing sets -/

theorem IsRun.mono (h : IsRun u s) (hsub : u ⊆ v) : IsRun v s :=
  ⟨h.start_lt, fun x hx => hsub (h.subset x hx)⟩

theorem IsComponent.stop_eq (hd : IsComponent v d) (hc : IsComponent u c) (hsub : u ⊆ v)
    (hmc : m ∈ c) (hmd : m ∈ d) (hstop : c.stop ∉ v) : d.stop = c.stop := by
  have hle := (hd.holds (hc.toIsRun.mono hsub) hmd hmc).2
  refine le_antisymm (le_of_not_gt fun hlt => hstop ?_) hle
  exact hd.subset c.stop ⟨hmd.1.trans hmc.2.le, hlt⟩

/-- If the sets agree between a moment of neither and the start of the smaller component, the
components start together. -/
theorem IsComponent.start_eq (hd : IsComponent v d) (hc : IsComponent u c) (hsub : u ⊆ v)
    (hyc : y ∈ c) (hyd : y ∈ d) (hm : m ∉ v) (hmc : m < c.start)
    (hagree : ∀ x ∈ v, m < x → x ≤ c.start → x ∈ u) : d.start = c.start := by
  obtain ⟨hle, hstop⟩ := hd.holds (hc.toIsRun.mono hsub) hyd hyc
  have hmd : m < d.start := lt_of_not_ge fun hdm =>
    hm (hd.subset m ⟨hdm, hmc.trans (hc.start_lt.trans_le hstop)⟩)
  have hrun : IsRun u ⟨d.start, c.stop⟩ := by
    refine ⟨hle.trans_lt hc.start_lt, ?_⟩
    rintro x ⟨hdx, hxc⟩
    rcases le_total x c.start with hxs | hsx
    · exact hagree x (hd.subset x ⟨hdx, hxc.trans_le hstop⟩) (hmd.trans_le hdx) hxs
    · exact hc.subset x ⟨hsx, hxc⟩
  have hin : c.start ∈ (⟨d.start, c.stop⟩ : Span f) := ⟨hle, hc.start_lt⟩
  exact le_antisymm hle (hc.holds hrun ⟨le_rfl, hc.start_lt⟩ hin).1

end Span

end Circulation
