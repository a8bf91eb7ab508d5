import Circulation.Time.Moment

/-!
# Spans of time

A span is half open: it holds its start and not its stop. `Span.merge` joins spans that overlap or
touch, so that the merged spans cover the same moments and lie apart from one another.
-/

namespace Circulation

/-- The moments from `start` on and before `stop`. -/
structure Span (f : Frame) where
  start : Moment f
  stop : Moment f
  deriving DecidableEq, Repr

namespace Span

variable {f : Frame}

instance : Membership (Moment f) (Span f) := ⟨fun s m => s.start ≤ m ∧ m < s.stop⟩

instance (m : Moment f) (s : Span f) : Decidable (m ∈ s) := inferInstanceAs (Decidable (_ ∧ _))

theorem mem_def {m : Moment f} {s : Span f} : m ∈ s ↔ s.start ≤ m ∧ m < s.stop := Iff.rfl

/-- The spans in order of their starts. Spans with one start keep their order. -/
def sortByStart (spans : List (Span f)) : List (Span f) :=
  spans.mergeSort fun a b => a.start ≤ b.start

/-- Joins the spans that start no later than `current` stops to it, and so on with the rest. -/
def mergeFrom (current : Span f) : List (Span f) → List (Span f)
  | [] => [current]
  | s :: rest =>
    if s.start ≤ current.stop then mergeFrom ⟨current.start, max current.stop s.stop⟩ rest
    else current :: mergeFrom s rest

/-- Joins spans that overlap or touch. -/
def merge (spans : List (Span f)) : List (Span f) :=
  match sortByStart spans with
  | [] => []
  | s :: rest => mergeFrom s rest

/-- The part of the span from `start` to `stop`. -/
def clip (s : Span f) (start stop : Moment f) : Span f :=
  ⟨max s.start start, min s.stop stop⟩

theorem sortByStart_perm (spans : List (Span f)) : (sortByStart spans).Perm spans :=
  List.mergeSort_perm _ _

theorem sortByStart_pairwise (spans : List (Span f)) :
    (sortByStart spans).Pairwise fun a b => a.start ≤ b.start := by
  refine (List.pairwise_mergeSort (fun a b c hab hbc => ?_) (fun a b => ?_) spans).imp ?_
  · simp only [decide_eq_true_eq] at *
    exact Moment.le_trans hab hbc
  · simpa using Moment.le_total a.start b.start
  · simp

end Span

end Circulation
