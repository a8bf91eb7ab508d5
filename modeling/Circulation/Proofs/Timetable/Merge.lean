import Circulation.Proofs.Time.Order
import Circulation.Timetable.Span
import Mathlib.Data.List.Basic
import Mathlib.Data.Set.Basic

/-!
# Merged spans

`Span.union spans` is the set of moments that some of the spans hold, and `Span.Apart spans` says
that each of them stops before the later ones start. Merging keeps the union, for any spans, and
leaves spans that lie apart.
-/

namespace Circulation

namespace Span

variable {f : Frame}

/-- The moments that some of the spans hold. -/
def union (spans : List (Span f)) : Set (Moment f) := {m | ∃ s ∈ spans, m ∈ s}

/-- Each span stops before the later ones start. -/
def Apart (spans : List (Span f)) : Prop := spans.Pairwise fun a b => a.stop < b.start

/-- No moment is in both spans. -/
def Misses (s r : Span f) : Prop := ∀ m ∈ s, m ∉ r

theorem Apart.misses {spans : List (Span f)} (h : Apart spans) : spans.Pairwise Misses :=
  h.imp fun hlt _ hs hr => lt_asymm hs.2 (hlt.trans_le hr.1)

theorem mem_union {spans : List (Span f)} {m : Moment f} :
    m ∈ union spans ↔ ∃ s ∈ spans, m ∈ s := Iff.rfl

@[simp] theorem union_nil : union ([] : List (Span f)) = ∅ := by
  ext m; simp [mem_union]

@[simp] theorem union_cons (s : Span f) (rest : List (Span f)) :
    union (s :: rest) = {m | m ∈ s} ∪ union rest := by
  ext m; simp [mem_union]

/-! ## Joining to a current span -/

/-- A span that starts within another, or just where it stops, extends it. This holds whether the
moment at which a span starts or the one at which it stops counts as its own, if every moment is
past a start or short of any stop that is not before the start. -/
theorem join_iff {past short : Moment f → Moment f → Prop} {a b : Span f} {m : Moment f}
    (hpast : ∀ {s t}, s ≤ t → past t m → past s m)
    (hshort : ∀ {s t}, short m (max s t) ↔ short m s ∨ short m t)
    (hmeet : ∀ {s t}, s ≤ t → short m t ∨ past s m) (hab : a.start ≤ b.start)
    (hba : b.start ≤ a.stop) : past a.start m ∧ short m (max a.stop b.stop) ↔
      past a.start m ∧ short m a.stop ∨ past b.start m ∧ short m b.stop := by
  rw [hshort]
  refine ⟨?_, ?_⟩
  · rintro ⟨hm, ha | hb⟩
    · exact .inl ⟨hm, ha⟩
    · rcases hmeet hba with ha | hbm
      · exact .inl ⟨hm, ha⟩
      · exact .inr ⟨hbm, hb⟩
  · rintro (⟨hm, ha⟩ | ⟨hm, hb⟩)
    · exact ⟨hm, .inl ha⟩
    · exact ⟨hpast hab hm, .inr hb⟩

/-- If joining spans that overlap or touch gives a span with a property just when one of the two has
it, then some merged span has the property just when some of the spans has. -/
theorem exists_mergeFrom_iff {p : Span f → Prop}
    (hjoin : ∀ a b, a.start ≤ b.start → b.start ≤ a.stop →
      (p ⟨a.start, max a.stop b.stop⟩ ↔ p a ∨ p b)) {current : Span f} {rest : List (Span f)}
    (h : (current :: rest).Pairwise fun a b => a.start ≤ b.start) :
    (∃ s ∈ mergeFrom current rest, p s) ↔ ∃ s ∈ current :: rest, p s := by
  induction rest generalizing current with
  | nil => rfl
  | cons s rest ih =>
    obtain ⟨hcur, hrest⟩ := List.pairwise_cons.mp h
    unfold mergeFrom
    split
    · rename_i hle
      have hjoined : ((⟨current.start, max current.stop s.stop⟩ : Span f) :: rest).Pairwise
          fun a b => a.start ≤ b.start :=
        List.pairwise_cons.mpr
          ⟨fun b hb => hcur b (List.mem_cons_of_mem _ hb), hrest.of_cons⟩
      rw [ih hjoined]
      simp only [List.exists_mem_cons_iff, hjoin current s (hcur s List.mem_cons_self) hle,
        or_assoc]
    · rw [List.exists_mem_cons_iff, ih hrest, List.exists_mem_cons_iff p current]

/-- What joining keeps holds of the merged spans if it holds of the spans. -/
theorem forall_mem_mergeFrom {p : Span f → Prop}
    (hjoin : ∀ a b, p a → p b → p ⟨a.start, max a.stop b.stop⟩) {current : Span f}
    {rest : List (Span f)} (hcur : p current) (hrest : ∀ s ∈ rest, p s) :
    ∀ s ∈ mergeFrom current rest, p s := by
  induction rest generalizing current with
  | nil =>
    intro s hs
    obtain rfl := List.mem_singleton.mp hs
    exact hcur
  | cons r rest ih =>
    have hr := hrest r List.mem_cons_self
    have hrest' : ∀ s ∈ rest, p s := fun s hs => hrest s (List.mem_cons_of_mem r hs)
    unfold mergeFrom
    split
    · exact ih (hjoin current r hcur hr) hrest'
    · intro s hs
      rcases List.mem_cons.mp hs with rfl | hs
      · exact hcur
      · exact ih hr hrest' s hs

theorem mergeFrom_apart {current : Span f} {rest : List (Span f)}
    (h : (current :: rest).Pairwise fun a b => a.start ≤ b.start) :
    Apart (mergeFrom current rest) := by
  induction rest generalizing current with
  | nil => exact List.pairwise_singleton _ _
  | cons s rest ih =>
    obtain ⟨hcur, hrest⟩ := List.pairwise_cons.mp h
    unfold mergeFrom
    split
    · exact ih (List.pairwise_cons.mpr
        ⟨fun b hb => hcur b (List.mem_cons_of_mem _ hb), hrest.of_cons⟩)
    · rename_i hlt
      refine List.pairwise_cons.mpr ⟨fun b hb => ?_, ih hrest⟩
      have hs : s.start ≤ b.start :=
        forall_mem_mergeFrom (p := fun r => s.start ≤ r.start) (fun _ _ ha _ => ha) le_rfl
          (fun r hr => List.rel_of_pairwise_cons hrest hr) b hb
      exact (Moment.not_le.mp hlt).trans_le hs

/-! ## Merging -/

theorem mem_sortByStart {spans : List (Span f)} {s : Span f} :
    s ∈ sortByStart spans ↔ s ∈ spans := (sortByStart_perm spans).mem_iff

theorem exists_merge_iff {p : Span f → Prop}
    (hjoin : ∀ a b, a.start ≤ b.start → b.start ≤ a.stop →
      (p ⟨a.start, max a.stop b.stop⟩ ↔ p a ∨ p b)) (spans : List (Span f)) :
    (∃ s ∈ merge spans, p s) ↔ ∃ s ∈ spans, p s := by
  have hsort : (∃ s ∈ sortByStart spans, p s) ↔ ∃ s ∈ spans, p s := by
    simp only [mem_sortByStart]
  have hpair := sortByStart_pairwise spans
  rw [← hsort]
  unfold merge
  cases h : sortByStart spans with
  | nil => rfl
  | cons s rest =>
    rw [h] at hpair
    exact exists_mergeFrom_iff hjoin hpair

theorem union_merge (spans : List (Span f)) : union (merge spans) = union spans := by
  ext m
  refine exists_merge_iff (fun _ _ => join_iff le_trans lt_max_iff fun {_ t} hst => ?_) spans
  exact (lt_or_ge m t).imp_right hst.trans

theorem merge_apart (spans : List (Span f)) : Apart (merge spans) := by
  have hpair := sortByStart_pairwise spans
  unfold merge
  cases h : sortByStart spans with
  | nil => exact .nil
  | cons s rest =>
    rw [h] at hpair
    exact mergeFrom_apart hpair

theorem forall_mem_merge {spans : List (Span f)} {p : Span f → Prop}
    (hjoin : ∀ a b, p a → p b → p ⟨a.start, max a.stop b.stop⟩) (h : ∀ s ∈ spans, p s) :
    ∀ s ∈ merge spans, p s := by
  have hsort : ∀ s ∈ sortByStart spans, p s := fun s hs => h s (mem_sortByStart.mp hs)
  unfold merge
  cases hl : sortByStart spans with
  | nil => simp
  | cons s rest =>
    rw [hl] at hsort
    exact forall_mem_mergeFrom hjoin (hsort s List.mem_cons_self)
      fun r hr => hsort r (List.mem_cons_of_mem s hr)

theorem start_lt_of_mem_merge {spans : List (Span f)} (h : ∀ s ∈ spans, s.start < s.stop) :
    ∀ s ∈ merge spans, s.start < s.stop :=
  forall_mem_merge (fun _ _ ha _ => ha.trans_le (le_max_left _ _)) h

/-- A merged span starts where one of the spans does and stops where one does. -/
theorem ends_of_mem_merge {spans : List (Span f)} :
    ∀ s ∈ merge spans, (∃ r ∈ spans, r.start = s.start) ∧ ∃ r ∈ spans, r.stop = s.stop := by
  refine forall_mem_merge (fun a b ha hb => ⟨ha.1, ?_⟩) fun s hs => ⟨⟨s, hs, rfl⟩, s, hs, rfl⟩
  rcases max_choice a.stop b.stop with hmax | hmax
  · rw [hmax]
    exact ha.2
  · rw [hmax]
    exact hb.2

end Span

end Circulation
