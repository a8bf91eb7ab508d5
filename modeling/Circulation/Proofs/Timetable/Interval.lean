import Circulation.Proofs.Timetable.Merge
import Circulation.Timetable.Basic
import Mathlib.Data.List.Chain

/-!
# Lines of intervals

`Timetable.Tiled` says that intervals follow one another without a break, open and closed ones in
turn. Filling the gaps of spans that lie apart gives such a line, which holds just the moments of
the stretch that is filled and whose open intervals are the spans. In such a line the binary search
finds the interval of a moment.
-/

namespace Circulation

/-- One interval stops where the other starts, and just one of the two is open. -/
def Interval.Meets (a b : Interval) : Prop := a.stop = b.start ∧ a.isOpen ≠ b.isOpen

namespace Timetable

/-- Intervals without a break between them, open and closed ones in turn. -/
structure Tiled (l : List Interval) : Prop where
  start_lt : ∀ i ∈ l, i.start < i.stop
  meets : l.IsChain Interval.Meets

/-- The moments in some of the intervals. -/
def covered (l : List Interval) : Set Instant := {m | ∃ i ∈ l, m ∈ i.toSpan}

theorem mem_covered {l : List Interval} {m : Instant} :
    m ∈ covered l ↔ ∃ i ∈ l, m ∈ i.toSpan := Iff.rfl

theorem Tiled.tail {i : Interval} {l : List Interval} (h : Tiled (i :: l)) : Tiled l :=
  ⟨fun j hj => h.start_lt j (List.mem_cons_of_mem i hj), h.meets.tail⟩

theorem Tiled.pairwise {l : List Interval} (h : Tiled l) :
    l.Pairwise fun a b => a.stop ≤ b.start := by
  induction l with
  | nil => exact .nil
  | cons i l ih =>
    refine List.pairwise_cons.mpr ⟨fun j hj => ?_, ih h.tail⟩
    cases l with
    | nil => cases hj
    | cons k l =>
      have hik : i.stop = k.start := (h.meets.rel_head? rfl).1
      rcases List.mem_cons.mp hj with rfl | hj
      · exact hik.le
      · have hk : k.start < k.stop := h.tail.start_lt k List.mem_cons_self
        have hkj : k.stop ≤ j.start := List.rel_of_pairwise_cons (ih h.tail) hj
        exact hik.le.trans (hk.le.trans hkj)

/-! ## Filling the gaps -/

theorem mem_covered_gap {a b m : Instant} : m ∈ covered (gap a b) ↔ a ≤ m ∧ m < b := by
  unfold gap
  split
  · simp [mem_covered, Interval.ofClosed, Span.mem_def]
  · rename_i h
    simp only [mem_covered, List.not_mem_nil, false_and, exists_false, false_iff, not_and]
    exact fun ham hmb => h (ham.trans_lt hmb)

theorem covered_append (l r : List Interval) : covered (l ++ r) = covered l ∪ covered r := by
  ext m
  simp [mem_covered, or_and_right, exists_or]

theorem mem_covered_cons {i : Interval} {l : List Interval} {m : Instant} :
    m ∈ covered (i :: l) ↔ m ∈ i.toSpan ∨ m ∈ covered l := by
  simp [mem_covered]

section Fill

variable {cursor finish : Instant} {spans : List (Span .utc)}

/-- Spans apart from one another, none empty, that lie between two instants. -/
structure Fits (cursor finish : Instant) (spans : List (Span .utc)) : Prop where
  apart : Span.Apart spans
  start_lt : ∀ s ∈ spans, s.start < s.stop
  le_start : ∀ s ∈ spans, cursor ≤ s.start
  stop_le : ∀ s ∈ spans, s.stop ≤ finish

theorem Fits.tail {s : Span .utc} (h : Fits cursor finish (s :: spans)) :
    Fits s.stop finish spans where
  apart := h.apart.of_cons
  start_lt r hr := h.start_lt r (List.mem_cons_of_mem s hr)
  le_start _ hr := (List.rel_of_pairwise_cons h.apart hr).le
  stop_le r hr := h.stop_le r (List.mem_cons_of_mem s hr)

/-- The filled stretch is covered and nothing else is. -/
theorem Fits.mem_covered_fill (h : Fits cursor finish spans) {m : Instant} :
    m ∈ covered (fill cursor finish spans) ↔ cursor ≤ m ∧ m < finish := by
  induction spans generalizing cursor with
  | nil => exact mem_covered_gap
  | cons s rest ih =>
    have hs := h.start_lt s List.mem_cons_self
    have hle := h.le_start s List.mem_cons_self
    have hstop := h.stop_le s List.mem_cons_self
    rw [fill, covered_append, Set.mem_union, mem_covered_cons, mem_covered_gap, ih h.tail]
    simp only [Interval.ofOpen, Span.mem_def]
    refine ⟨?_, ?_⟩
    · rintro (⟨h1, h2⟩ | ⟨h1, h2⟩ | ⟨h1, h2⟩)
      · exact ⟨h1, h2.trans (hs.trans_le hstop)⟩
      · exact ⟨hle.trans h1, h2.trans_le hstop⟩
      · exact ⟨hle.trans (hs.le.trans h1), h2⟩
    · rintro ⟨h1, h2⟩
      rcases lt_or_ge m s.start with h3 | h3
      · exact .inl ⟨h1, h3⟩
      rcases lt_or_ge m s.stop with h4 | h4
      · exact .inr (.inl ⟨h3, h4⟩)
      · exact .inr (.inr ⟨h4, h2⟩)

/-- A filled stretch whose first span starts later begins with a closed interval. -/
theorem closed_of_mem_head?_fill (h : ∀ s ∈ spans.head?, cursor < s.start) {i : Interval}
    (hi : i ∈ (fill cursor finish spans).head?) : i.start = cursor ∧ i.isOpen = false := by
  have hgap : ∀ stop, i ∈ (gap cursor stop).head? → i.start = cursor ∧ i.isOpen = false := by
    intro stop hi
    unfold gap at hi
    split at hi
    · obtain rfl : Interval.ofClosed cursor stop = i := by simpa using hi
      exact ⟨rfl, rfl⟩
    · cases hi
  cases spans with
  | nil => exact hgap finish hi
  | cons s rest =>
    have hlt := h s rfl
    refine hgap s.start ?_
    simpa [fill, gap, hlt] using hi

/-- Filling leaves no break and no two open intervals in a row, even where a span is reversed. -/
theorem isChain_fill (hapart : Span.Apart spans) (hle : ∀ s ∈ spans.head?, cursor ≤ s.start) :
    (fill cursor finish spans).IsChain Interval.Meets := by
  induction spans generalizing cursor with
  | nil =>
    unfold fill gap
    split
    · exact .singleton _
    · exact .nil
  | cons s rest ih =>
    have hlater : ∀ r ∈ rest.head?, s.stop < r.start := fun r hr =>
      List.rel_of_pairwise_cons hapart (List.mem_of_mem_head? hr)
    have hrest := ih hapart.of_cons fun r hr => (hlater r hr).le
    have hopen : (Interval.ofOpen s :: fill s.stop finish rest).IsChain Interval.Meets := by
      refine hrest.cons fun i hi => ?_
      obtain ⟨hstart, hclosed⟩ := closed_of_mem_head?_fill hlater hi
      exact ⟨hstart.symm, by simp [Interval.ofOpen, hclosed]⟩
    unfold fill gap
    split
    · refine hopen.cons fun i hi => ?_
      obtain rfl : Interval.ofOpen s = i := by simpa using hi
      exact ⟨rfl, by simp [Interval.ofClosed, Interval.ofOpen]⟩
    · exact hopen

/-- An interval of a filled stretch is one of the spans, or it is closed and not empty. -/
theorem mem_fill_cases {i : Interval} (hi : i ∈ fill cursor finish spans) :
    (∃ s ∈ spans, i = Interval.ofOpen s) ∨ i.isOpen = false ∧ i.start < i.stop := by
  have hgap : ∀ {a b : Instant}, i ∈ gap a b → i.isOpen = false ∧ i.start < i.stop := by
    intro a b hi
    unfold gap at hi
    split at hi
    · rename_i hlt
      obtain rfl := List.mem_singleton.mp hi
      exact ⟨rfl, hlt⟩
    · cases hi
  induction spans generalizing cursor with
  | nil => exact .inr (hgap hi)
  | cons s rest ih =>
    rcases List.mem_append.mp hi with hi | hi
    · exact .inr (hgap hi)
    rcases List.mem_cons.mp hi with rfl | hi
    · exact .inl ⟨s, List.mem_cons_self, rfl⟩
    · refine (ih hi).imp_left ?_
      rintro ⟨r, hr, heq⟩
      exact ⟨r, List.mem_cons_of_mem s hr, heq⟩

theorem Fits.tiled_fill (h : Fits cursor finish spans) : Tiled (fill cursor finish spans) := by
  refine ⟨fun i hi => ?_, ?_⟩
  · rcases mem_fill_cases hi with ⟨s, hs, rfl⟩ | ⟨-, hlt⟩
    · exact h.start_lt s hs
    · exact hlt
  · exact isChain_fill h.apart fun s hs => h.le_start s (List.mem_of_mem_head? hs)

/-- The open intervals of a filled stretch are the spans. -/
theorem filter_isOpen_fill (cursor finish : Instant) (spans : List (Span .utc)) :
    (fill cursor finish spans).filter (·.isOpen) = spans.map Interval.ofOpen := by
  have hgap : ∀ a b, (gap a b).filter (·.isOpen) = [] := by
    intro a b
    unfold gap
    split <;> simp [Interval.ofClosed]
  induction spans generalizing cursor with
  | nil => exact hgap cursor finish
  | cons s rest ih => simp [fill, hgap, ih, Interval.ofOpen]

theorem mem_fill_isOpen_iff (cursor finish : Instant) {m : Instant} :
    (∃ i ∈ fill cursor finish spans, i.isOpen = true ∧ m ∈ i.toSpan) ↔ m ∈ Span.union spans := by
  have hfilter := filter_isOpen_fill cursor finish spans
  refine ⟨?_, ?_⟩
  · rintro ⟨i, hi, hopen, hm⟩
    have hi' : i ∈ spans.map Interval.ofOpen := hfilter ▸ List.mem_filter.mpr ⟨hi, hopen⟩
    obtain ⟨s, hs, rfl⟩ := List.mem_map.mp hi'
    exact ⟨s, hs, hm⟩
  · rintro ⟨s, hs, hm⟩
    have hs' := List.mem_map_of_mem (f := Interval.ofOpen) hs
    rw [← hfilter] at hs'
    obtain ⟨hi, hopen⟩ := List.mem_filter.mp hs'
    exact ⟨Interval.ofOpen s, hi, hopen, hm⟩

end Fill

/-! ## Binary search -/

/-- Halving finds where the elements that satisfy `p` stop, if they come first. -/
theorem partitionPoint_append {α : Type} {p : α → Bool} {l r : List α} (hl : ∀ x ∈ l, p x = true)
    (hr : ∀ x ∈ r, p x = false) : partitionPoint p (l ++ r) = l.length := by
  generalize hxs : l ++ r = xs
  fun_induction partitionPoint p xs generalizing l r with
  | case1 => simp_all
  | case2 xs hne middle hm hp =>
    rename_i ih
    subst hxs
    have hlt : middle < l.length := by
      by_contra hge
      rw [List.get_eq_getElem, List.getElem_append_right (Nat.le_of_not_lt hge)] at hp
      simp [hr _ (List.getElem_mem _)] at hp
    have hdrop : l.drop (middle + 1) ++ r = (l ++ r).drop (middle + 1) :=
      (List.drop_append_of_le_length hlt).symm
    rw [ih (fun x hx => hl x (List.mem_of_mem_drop hx)) hr hdrop, List.length_drop]
    omega
  | case3 xs hne middle hm hp =>
    rename_i ih
    subst hxs
    have hge : l.length ≤ middle := by
      by_contra hlt
      rw [List.get_eq_getElem, List.getElem_append_left (Nat.lt_of_not_le hlt)] at hp
      exact hp (hl _ (List.getElem_mem _))
    have htake : l ++ r.take (middle - l.length) = (l ++ r).take middle := by
      rw [List.take_append, List.take_of_length_le hge]
    exact ih hl (fun x hx => hr x (List.mem_of_mem_take hx)) htake

section Position

variable {t : Timetable} {m : Instant} {p : Position}

section Split

variable {before after : List Interval} {here : Interval}

/-- An interval that holds the moment divides the others into those that stop before the moment and
those that start after it. -/
theorem Tiled.split (h : Tiled (before ++ here :: after)) (hm : m ∈ here.toSpan) :
    (∀ i ∈ before, i.stop ≤ m) ∧ ∀ i ∈ after, m < i.start := by
  obtain ⟨-, hafter, hbefore⟩ := List.pairwise_append.mp h.pairwise
  refine ⟨fun i hi => ?_, fun i hi => ?_⟩
  · have hle : i.stop ≤ here.start := hbefore i hi here List.mem_cons_self
    exact hle.trans hm.1
  · have hle : here.stop ≤ i.start := List.rel_of_pairwise_cons hafter hi
    exact hm.2.trans_le hle

theorem Tiled.partitionPoint_eq (h : Tiled (before ++ here :: after)) (hm : m ∈ here.toSpan) :
    partitionPoint (fun i : Interval => i.stop ≤ m) (before ++ here :: after) = before.length := by
  obtain ⟨hbefore, hafter⟩ := h.split hm
  refine partitionPoint_append (fun i hi => ?_) (fun i hi => ?_)
  · simpa using hbefore i hi
  · have hlt : m < i.stop := by
      rcases List.mem_cons.mp hi with rfl | hi'
      · exact hm.2
      · exact (hafter i hi').trans (h.start_lt i (List.mem_append_right _ hi))
    simpa using hlt

end Split

/-- The position of a moment is the interval that holds it, between all the others. -/
theorem position?_eq_some_iff (h : Tiled t.intervals) :
    t.position? m = some p ↔
      t.intervals = p.before.reverse ++ p.here :: p.after ∧ m ∈ p.here.toSpan := by
  refine ⟨?_, ?_⟩
  · intro hp
    unfold position? at hp
    simp only at hp
    split at hp
    · cases hp
    · rename_i here after hdrop
      split at hp
      · rename_i hm
        obtain rfl := Option.some.inj hp
        refine ⟨?_, hm⟩
        rw [List.reverse_reverse, ← hdrop, List.take_append_drop]
      · cases hp
  · rintro ⟨heq, hm⟩
    have hpoint := Tiled.partitionPoint_eq (heq ▸ h) hm
    rw [List.length_reverse] at hpoint
    unfold position?
    rw [heq, hpoint]
    simp [List.take_left', List.drop_left', hm]

/-- The intervals before a position stop before the moment, those after it start later. -/
theorem Tiled.around (h : Tiled t.intervals) (hp : t.position? m = some p) :
    (∀ i ∈ p.before, i.stop ≤ m) ∧ ∀ i ∈ p.after, m < i.start := by
  obtain ⟨heq, hm⟩ := (position?_eq_some_iff h).mp hp
  obtain ⟨hbefore, hafter⟩ := (heq ▸ h).split hm
  exact ⟨fun i hi => hbefore i (List.mem_reverse.mpr hi), hafter⟩

theorem position?_eq_none_iff (h : Tiled t.intervals) :
    t.position? m = none ↔ m ∉ covered t.intervals := by
  refine ⟨?_, ?_⟩
  · rintro hnone ⟨i, hi, hm⟩
    obtain ⟨before, after, heq⟩ := List.append_of_mem hi
    have hsome : t.position? m = some ⟨before.reverse, i, after⟩ :=
      (position?_eq_some_iff h).mpr ⟨by simpa using heq, hm⟩
    simp [hnone] at hsome
  · intro hout
    cases hp : t.position? m with
    | none => rfl
    | some p =>
      obtain ⟨heq, hm⟩ := (position?_eq_some_iff h).mp hp
      exact absurd ⟨p.here, by simp [heq], hm⟩ hout

end Position

end Timetable

end Circulation
