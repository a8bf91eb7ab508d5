import Circulation.Proofs.Timetable.Merge
import Circulation.Zone.Basic
import Mathlib.Data.List.Sort

/-!
# Components of a set of moments

A component of a set is a non-empty span in the set that no other one contains. Non-empty spans
that lie apart are the components of their union, so that the union determines them, and the
components on either side of a moment are found by their order in the list.
-/

namespace Circulation

namespace Span

variable {f : Frame}

/-- A non-empty span of moments of `u`. -/
structure IsRun (u : Set (Moment f)) (s : Span f) : Prop where
  start_lt : s.start < s.stop
  subset : ∀ m ∈ s, m ∈ u

/-- A run of `u` that no other run contains. -/
structure IsComponent (u : Set (Moment f)) (c : Span f) : Prop extends IsRun u c where
  maximal : ∀ s, IsRun u s → (∀ m ∈ c, m ∈ s) → s = c

variable {spans : List (Span f)} {u : Set (Moment f)} {c : Span f}

/-! ## Spans that lie apart -/

theorem Apart.rel {a b : Span f} (h : Apart spans) (ha : a ∈ spans) (hb : b ∈ spans) :
    a = b ∨ a.stop < b.start ∨ b.stop < a.start :=
  List.Pairwise.forall_of_forall_of_flip (R := fun a b : Span f =>
    a = b ∨ a.stop < b.start ∨ b.stop < a.start) (fun _ _ => .inl rfl)
    (h.imp fun h => .inr (.inl h)) (h.imp fun h => .inr (.inr h)) ha hb

/-- No moment at which one of them stops is in the union. -/
theorem Apart.stop_notMem_union (h : Apart spans) (hn : ∀ s ∈ spans, s.start < s.stop)
    (hc : c ∈ spans) : c.stop ∉ union spans := by
  rintro ⟨d, hd, hstart, hstop⟩
  rcases h.rel hc hd with rfl | hlt | hlt
  · exact lt_irrefl _ hstop
  · exact lt_irrefl _ (hlt.trans_le hstart)
  · exact lt_asymm (hstop.trans hlt) (hn c hc)

theorem Apart.isComponent (h : Apart spans) (hn : ∀ s ∈ spans, s.start < s.stop)
    (hc : c ∈ spans) : IsComponent (union spans) c := by
  have hcn := hn c hc
  refine ⟨⟨hcn, fun m hm => ⟨c, hc, hm⟩⟩, fun s hs hcs => ?_⟩
  have hin : c.start ∈ s := hcs c.start ⟨le_rfl, hcn⟩
  -- A run that began before `c` would hold the stop of the span in which it begins.
  have hstart : s.start = c.start := by
    obtain ⟨d, hd, hds, hsd⟩ := hs.subset s.start ⟨le_rfl, hs.start_lt⟩
    rcases h.rel hc hd with rfl | hlt | hlt
    · exact le_antisymm hin.1 hds
    · exact absurd (hcn.trans (hlt.trans_le hds)) hin.1.not_gt
    · have hmem : d.stop ∈ s := ⟨hsd.le, hlt.trans hin.2⟩
      exact absurd (hs.subset _ hmem) (h.stop_notMem_union hn hd)
  have hstop : s.stop = c.stop := by
    refine le_antisymm (le_of_not_gt fun hlt => ?_) (le_of_not_gt fun hlt => ?_)
    · exact h.stop_notMem_union hn hc (hs.subset _ ⟨hin.1.trans hcn.le, hlt⟩)
    · exact lt_irrefl _ (hcs s.stop ⟨hin.2.le, hlt⟩).2
  cases s; cases c
  simp_all

theorem Apart.mem_iff_isComponent (h : Apart spans) (hn : ∀ s ∈ spans, s.start < s.stop) :
    c ∈ spans ↔ IsComponent (union spans) c := by
  refine ⟨h.isComponent hn, fun hc => ?_⟩
  obtain ⟨d, hd, hdc, hcd⟩ := hc.subset c.start ⟨le_rfl, hc.start_lt⟩
  have hsub : ∀ m ∈ c, m ∈ d := by
    intro m hm
    refine ⟨hdc.trans hm.1, lt_of_not_ge fun hle => ?_⟩
    exact h.stop_notMem_union hn hd (hc.subset _ ⟨hcd.le, hle.trans_lt hm.2⟩)
  rwa [← hc.maximal d (h.isComponent hn hd).toIsRun hsub]

/-- Spans that lie apart are determined by their union. -/
theorem Apart.eq_of_union_eq {others : List (Span f)} (h : Apart spans) (h' : Apart others)
    (hn : ∀ s ∈ spans, s.start < s.stop) (hn' : ∀ s ∈ others, s.start < s.stop)
    (heq : union spans = union others) : spans = others := by
  have hsorted : ∀ {l : List (Span f)}, Apart l → (∀ s ∈ l, s.start < s.stop) →
      l.Pairwise fun a b => a.start < b.start := by
    intro l hl hln
    exact hl.imp_of_mem fun ha _ hab => (hln _ ha).trans hab
  have hirrefl : Std.Irrefl fun a b : Span f => a.start < b.start := ⟨fun _ => lt_irrefl _⟩
  have hasymm : Std.Antisymm fun a b : Span f => a.start < b.start :=
    ⟨fun _ _ hab hba => absurd hab hba.asymm⟩
  refine (hsorted h hn).eq_of_mem_iff (hsorted h' hn') fun c => ?_
  rw [h.mem_iff_isComponent hn, h'.mem_iff_isComponent hn', heq]

/-- A run of the union of spans that lie apart lies within one of them. -/
theorem Apart.exists_of_isRun (h : Apart spans) (hn : ∀ s ∈ spans, s.start < s.stop)
    (hc : IsRun (union spans) c) : ∃ s ∈ spans, s.start ≤ c.start ∧ c.stop ≤ s.stop := by
  obtain ⟨s, hs, hsc, hcs⟩ := hc.subset c.start ⟨le_rfl, hc.start_lt⟩
  refine ⟨s, hs, hsc, le_of_not_gt fun hlt => ?_⟩
  exact h.stop_notMem_union hn hs (hc.subset s.stop ⟨hcs.le, hlt⟩)

/-- A span that is merged with others lies within one of the merged spans. -/
theorem exists_merge_of_mem (hn : ∀ s ∈ spans, s.start < s.stop) (hc : c ∈ spans) :
    ∃ s ∈ merge spans, s.start ≤ c.start ∧ c.stop ≤ s.stop := by
  refine (merge_apart spans).exists_of_isRun (start_lt_of_mem_merge hn) ⟨hn c hc, fun m hm => ?_⟩
  rw [union_merge]
  exact ⟨c, hc, hm⟩

/-! ## Components around a moment -/

/-- The last component that stops no later than `m`. -/
def IsLastBefore (u : Set (Moment f)) (m : Moment f) (c : Span f) : Prop :=
  IsComponent u c ∧ c.stop ≤ m ∧ ∀ d, IsComponent u d → d.stop ≤ m → d.stop ≤ c.stop

/-- The first component that starts after `m`. -/
def IsFirstAfter (u : Set (Moment f)) (m : Moment f) (c : Span f) : Prop :=
  IsComponent u c ∧ m < c.start ∧ ∀ d, IsComponent u d → m < d.start → c.start ≤ d.start

/-- The components from the first one after `m` up to `c` all start on one local date, and the
component that follows `c`, if there is one, starts on another. -/
def IsLastOfNextDay (z : Zone) (u : Set Instant) (m : Instant) (c : Span .utc) : Prop :=
  IsComponent u c ∧ ∃ first, IsFirstAfter u m first ∧ first.start ≤ c.start ∧
    (∀ d, IsComponent u d → m < d.start → d.start ≤ c.start →
      z.localDate d.start = z.localDate first.start) ∧
    ∀ d, IsFirstAfter u c.stop d → z.localDate d.start ≠ z.localDate first.start

/-- The spans that stop before `m` come before those that start after it. -/
theorem filter_split {m : Moment f} {early late : List (Span f)}
    (hn : ∀ s ∈ early ++ late, s.start < s.stop) (hstop : ∀ s ∈ early, s.stop ≤ m)
    (hstart : ∀ s ∈ late, m < s.start) :
    (early ++ late).filter (·.stop ≤ m) = early ∧ (early ++ late).filter (m < ·.start) = late := by
  have hearly : early.filter (·.stop ≤ m) = early := List.filter_eq_self.mpr (by simpa using hstop)
  have hlate : late.filter (m < ·.start) = late := List.filter_eq_self.mpr (by simpa using hstart)
  refine ⟨?_, ?_⟩
  · rw [List.filter_append, hearly, List.filter_eq_nil_iff.mpr, List.append_nil]
    intro s hs
    have hlt := (hstart s hs).trans (hn s (List.mem_append_right _ hs))
    simpa using hlt
  · rw [List.filter_append, hlate, List.filter_eq_nil_iff.mpr, List.nil_append]
    intro s hs
    have hle := (hn s (List.mem_append_left _ hs)).le.trans (hstop s hs)
    simpa using hle

theorem Apart.head?_eq_some_iff (h : Apart spans) (hn : ∀ s ∈ spans, s.start < s.stop) :
    spans.head? = some c ↔ c ∈ spans ∧ ∀ d ∈ spans, c.start ≤ d.start := by
  cases spans with
  | nil => simp
  | cons s rest =>
    have hs := hn s List.mem_cons_self
    have hlt : ∀ d ∈ rest, s.start < d.start := fun d hd =>
      hs.trans (List.rel_of_pairwise_cons h hd)
    simp only [List.head?_cons, Option.some.injEq, List.mem_cons]
    refine ⟨?_, ?_⟩
    · rintro rfl
      refine ⟨.inl rfl, fun d hd => ?_⟩
      rcases hd with rfl | hd
      · exact le_rfl
      · exact (hlt d hd).le
    · rintro ⟨rfl | hc, hmin⟩
      · rfl
      · exact absurd (hlt c hc) (hmin s (.inl rfl)).not_gt

theorem Apart.getLast?_eq_some_iff (h : Apart spans) (hn : ∀ s ∈ spans, s.start < s.stop) :
    spans.getLast? = some c ↔ c ∈ spans ∧ ∀ d ∈ spans, d.stop ≤ c.stop := by
  rcases List.eq_nil_or_concat spans with rfl | ⟨rest, s, rfl⟩
  · simp
  rw [List.concat_eq_append] at *
  have hlt : ∀ d ∈ rest, d.stop < s.stop := fun d hd =>
    ((List.pairwise_append.mp h).2.2 d hd s List.mem_cons_self).trans (hn s (by simp))
  simp only [List.getLast?_concat, Option.some.injEq, List.mem_append,
    List.mem_singleton]
  refine ⟨?_, ?_⟩
  · rintro rfl
    refine ⟨.inr rfl, fun d hd => ?_⟩
    rcases hd with hd | rfl
    · exact (hlt d hd).le
    · exact le_rfl
  · rintro ⟨hc | rfl, hmax⟩
    · exact absurd (hlt c hc) (hmax s (.inr rfl)).not_gt
    · rfl

theorem Apart.isLastBefore_iff (h : Apart spans) (hn : ∀ s ∈ spans, s.start < s.stop)
    {m : Moment f} :
    IsLastBefore (union spans) m c ↔ (spans.filter fun s => s.stop ≤ m).getLast? = some c := by
  have hf : Apart (spans.filter fun s => s.stop ≤ m) := h.filter _
  rw [hf.getLast?_eq_some_iff fun s hs => hn s (List.mem_of_mem_filter hs)]
  simp only [IsLastBefore, ← h.mem_iff_isComponent hn, List.mem_filter, decide_eq_true_eq,
    and_imp, and_assoc]

theorem Apart.isFirstAfter_iff (h : Apart spans) (hn : ∀ s ∈ spans, s.start < s.stop)
    {m : Moment f} :
    IsFirstAfter (union spans) m c ↔ (spans.filter fun s => m < s.start).head? = some c := by
  have hf : Apart (spans.filter fun s => m < s.start) := h.filter _
  rw [hf.head?_eq_some_iff fun s hs => hn s (List.mem_of_mem_filter hs)]
  simp only [IsFirstAfter, ← h.mem_iff_isComponent hn, List.mem_filter, decide_eq_true_eq,
    and_imp, and_assoc]

/-- Where the spans after `m` begin with some that start on one date and go on with one that does
not, the last of the former is the last component of the next day. -/
theorem Apart.isLastOfNextDay {spans : List (Span .utc)} {z : Zone} {m : Instant}
    {first c : Span .utc} {same others : List (Span .utc)} (h : Apart spans)
    (hn : ∀ s ∈ spans, s.start < s.stop)
    (hlater : (spans.filter fun s => m < s.start) = (first :: same) ++ others)
    (hsame : ∀ s ∈ same, z.localDate s.start = z.localDate first.start)
    (hothers : ∀ s ∈ others.head?, z.localDate s.start ≠ z.localDate first.start)
    (hc : (first :: same).getLast? = some c) : IsLastOfNextDay z (union spans) m c := by
  have hf : Apart ((first :: same) ++ others) := hlater ▸ h.filter _
  have hmem : ∀ s, s ∈ (first :: same) ++ others ↔ s ∈ spans ∧ m < s.start := fun s => by
    rw [← hlater, List.mem_filter, decide_eq_true_eq]
  have hpos : ∀ s ∈ (first :: same) ++ others, s.start < s.stop := fun s hs =>
    hn s ((hmem s).mp hs).1
  obtain ⟨hleft, -, hcross⟩ := List.pairwise_append.mp hf
  obtain ⟨hcmem, hmax⟩ := (Apart.getLast?_eq_some_iff hleft fun s hs =>
    hpos s (List.mem_append_left _ hs)).mp hc
  obtain ⟨hcs, hmc⟩ := (hmem c).mp (List.mem_append_left _ hcmem)
  refine ⟨h.isComponent hn hcs, first, (h.isFirstAfter_iff hn).mpr (by rw [hlater]; rfl), ?_,
    fun d hd hmd hdc => ?_, fun d hd => ?_⟩
  · rcases List.mem_cons.mp hcmem with rfl | hcmem'
    · exact le_rfl
    · exact ((hpos first (by simp)).trans (List.rel_of_pairwise_cons hleft hcmem')).le
  · have hd' := (hmem d).mpr ⟨(h.mem_iff_isComponent hn).mpr hd, hmd⟩
    rcases List.mem_append.mp hd' with hd' | hd'
    · rcases List.mem_cons.mp hd' with rfl | hd'
      · rfl
      · exact hsame d hd'
    · exact absurd ((hn c hcs).trans (hcross c hcmem d hd')) hdc.not_gt
  · -- The spans that start after `c` are the others.
    have hsplit := (filter_split hpos hmax (hcross c hcmem)).2
    rw [← hlater, List.filter_filter, List.filter_congr (q := fun s => c.stop < s.start)] at hsplit
    · rw [h.isFirstAfter_iff hn, hsplit] at hd
      exact hothers d hd
    · intro s hs
      have hms : c.stop < s.start → m < s.start := (hmc.trans (hn c hcs)).trans
      simpa using hms

theorem Apart.isLastOfNextDay_unique {spans : List (Span .utc)} {z : Zone} {m : Instant}
    {c d : Span .utc} (h : Apart spans) (hn : ∀ s ∈ spans, s.start < s.stop)
    (hc : IsLastOfNextDay z (union spans) m c) (hd : IsLastOfNextDay z (union spans) m d) :
    c = d := by
  -- Were one of them the later one, a component would follow the other on the same date.
  have hnot : ∀ {c d}, IsLastOfNextDay z (union spans) m c → IsLastOfNextDay z (union spans) m d →
      ¬ c.stop < d.start := by
    rintro c d ⟨hcc, first, hfirst, hle, -, hnext⟩ ⟨hdc, first', hfirst', -, hsame, -⟩ hlt
    have hfirst_eq : first = first' := by
      rw [h.isFirstAfter_iff hn] at hfirst hfirst'
      exact Option.some.inj (hfirst.symm.trans hfirst')
    subst hfirst_eq
    have hmem : d ∈ spans.filter fun s => c.stop < s.start :=
      List.mem_filter.mpr ⟨(h.mem_iff_isComponent hn).mpr hdc, by simpa using hlt⟩
    obtain ⟨e, he⟩ : ∃ e, (spans.filter fun s => c.stop < s.start).head? = some e := by
      rw [← Option.isSome_iff_exists, List.isSome_head?]
      exact List.ne_nil_of_mem hmem
    have hfollows : IsFirstAfter (union spans) c.stop e := (h.isFirstAfter_iff hn).mpr he
    have ⟨hec, hce, hmin⟩ := hfollows
    have hme : m < e.start := (hfirst.2.1.trans_le hle).trans (hcc.start_lt.trans hce)
    exact hnext e hfollows (hsame e hec hme (hmin d hdc hlt))
  have hcs := (h.mem_iff_isComponent hn).mpr hc.1
  have hds := (h.mem_iff_isComponent hn).mpr hd.1
  rcases h.rel hcs hds with heq | hlt | hlt
  · exact heq
  · exact absurd hlt (hnot hc hd)
  · exact absurd hlt (hnot hd hc)

end Span

end Circulation
