import Circulation.Overdue
import Circulation.Proofs.Time.Elapsed
import Circulation.Proofs.Timetable.Merge
import Mathlib.Data.Int.Interval
import Mathlib.Data.Set.Card

/-!
# The length of a set of instants

The length of a set is the number of its instants, leap seconds apart, in nanoseconds. Spans that
lie apart are as long together as what they cover, and so the nanoseconds counted for overdue time
are the length of the open time in the stretch that is overdue.
-/

namespace Circulation

namespace Overdue

open Moment

/-! ## Length -/

/-- The instants of a set that are no leap seconds. -/
def ordinary (s : Set Instant) : Set Instant := {m | m ∈ s ∧ ¬ m.IsLeapSecond}

/-- The length of a set of instants in nanoseconds. -/
noncomputable def length (s : Set Instant) : Nat := (ordinary s).ncard

variable {a b : Instant} {s t : Set Instant}

/-- From one instant up to another. -/
def stretch (a b : Instant) : Set Instant := {m | a ≤ m ∧ m < b}

theorem ordinary_stretch (ha : ¬ a.IsLeapSecond) (hb : ¬ b.IsLeapSecond) :
    ordinary (stretch a b) = Set.image ofNanos {n | a.nanos ≤ n ∧ n < b.nanos} := by
  ext m
  refine ⟨?_, ?_⟩
  · rintro ⟨⟨ham, hmb⟩, hm⟩
    refine ⟨m.nanos, ⟨(nanos_le_iff ha hm).mpr ham, (nanos_lt_iff hm hb).mpr hmb⟩, ?_⟩
    exact ofNanos_nanos hm
  · rintro ⟨n, ⟨han, hnb⟩, rfl⟩
    have hn : ¬ (ofNanos n : Instant).IsLeapSecond := ofNanos_not_leap n
    refine ⟨⟨(nanos_le_iff ha hn).mp ?_, (nanos_lt_iff hn hb).mp ?_⟩, hn⟩
    · rwa [nanos_ofNanos]
    · rwa [nanos_ofNanos]

theorem exists_finset (k l : Int) :
    ∃ ns : Finset Int, ns = {n : Int | k ≤ n ∧ n < l} ∧ ns.card = (l - k).toNat := by
  refine ⟨Finset.Ico k l, ?_, Int.card_Ico k l⟩
  ext n
  simp

theorem length_stretch (ha : ¬ a.IsLeapSecond) (hb : ¬ b.IsLeapSecond) :
    length (stretch a b) = (b.nanos - a.nanos).toNat := by
  obtain ⟨ns, hns, hcard⟩ := exists_finset a.nanos b.nanos
  rw [length, ordinary_stretch ha hb, Set.ncard_image_of_injective _ ofNanos_injective, ← hns,
    Set.ncard_coe_finset, hcard]

theorem finite_ordinary_stretch (ha : ¬ a.IsLeapSecond) (hb : ¬ b.IsLeapSecond) :
    (ordinary (stretch a b)).Finite := by
  obtain ⟨ns, hns, -⟩ := exists_finset a.nanos b.nanos
  rw [ordinary_stretch ha hb, ← hns]
  exact ns.finite_toSet.image _

theorem finite_ordinary_inter (ha : ¬ a.IsLeapSecond) (hb : ¬ b.IsLeapSecond)
    (s : Set Instant) : (ordinary (stretch a b ∩ s)).Finite :=
  (finite_ordinary_stretch ha hb).subset fun _ hm => ⟨hm.1.1, hm.2⟩

theorem length_mono (h : s ⊆ t) (ht : (ordinary t).Finite) : length s ≤ length t :=
  Set.ncard_le_ncard (fun _ hm => ⟨h hm.1, hm.2⟩) ht

theorem ordinary_union (s t : Set Instant) : ordinary (s ∪ t) = ordinary s ∪ ordinary t := by
  ext m
  simp [ordinary, or_and_right]

theorem ordinary_inter (s t : Set Instant) : ordinary (s ∩ t) = ordinary s ∩ ordinary t := by
  ext m
  simp only [ordinary, Set.mem_inter_iff, Set.mem_ofPred_eq]
  tauto

theorem length_empty : length ∅ = 0 := by simp [length, ordinary]

theorem length_union_add_inter (hs : (ordinary s).Finite) (ht : (ordinary t).Finite) :
    length (s ∪ t) + length (s ∩ t) = length s + length t := by
  rw [length, length, ordinary_union, ordinary_inter]
  exact Set.ncard_union_add_ncard_inter _ _ hs ht

theorem length_union (h : ∀ m ∈ s, m ∉ t) (hs : (ordinary s).Finite) (ht : (ordinary t).Finite) :
    length (s ∪ t) = length s + length t := by
  have hempty : s ∩ t = ∅ := Set.eq_empty_iff_forall_notMem.mpr fun m hm => h m hm.1 hm.2
  rw [← length_union_add_inter hs ht, hempty, length_empty, Nat.add_zero]

/-- An instant on the way divides the time of a stretch that lies in a set. -/
theorem length_halves {mid : Instant} (ha : ¬ a.IsLeapSecond) (hmid : ¬ mid.IsLeapSecond)
    (hb : ¬ b.IsLeapSecond) (ham : a ≤ mid) (hmb : mid ≤ b) :
    length (stretch a b ∩ s) = length (stretch a mid ∩ s) + length (stretch mid b ∩ s) := by
  have hdisjoint : ∀ m ∈ stretch a mid ∩ s, m ∉ stretch mid b ∩ s :=
    fun m hm hm' => hm.1.2.not_ge hm'.1.1
  have hsplit : stretch a b = stretch a mid ∪ stretch mid b := by
    ext m
    refine ⟨fun hm => ?_, ?_⟩
    · exact (lt_or_ge m mid).imp (fun hlt => ⟨hm.1, hlt⟩) fun hge => ⟨hge, hm.2⟩
    · rintro (hm | hm)
      · exact ⟨hm.1, hm.2.trans_le hmb⟩
      · exact ⟨ham.trans hm.1, hm.2⟩
  rw [hsplit, Set.union_inter_distrib_right, length_union hdisjoint
    (finite_ordinary_inter ha hmid s) (finite_ordinary_inter hmid hb s)]

/-! ## Counted time -/

theorem totalNanos_cons (s : Span .utc) (rest : List (Span .utc)) :
    totalNanos (s :: rest) =
      (if s.start < s.stop then s.stop.nanosSince s.start else 0) + totalNanos rest := by
  unfold totalNanos
  by_cases h : s.start < s.stop
  · rw [List.filter_cons_of_pos (by simpa using h), List.foldr_cons, if_pos h]
  · rw [List.filter_cons_of_neg (by simpa using h), if_neg h, Int.zero_add]

theorem counted_eq_length {r : Span .utc} (hstart : ¬ r.start.IsLeapSecond)
    (hstop : ¬ r.stop.IsLeapSecond) :
    (if r.start < r.stop then r.stop.nanosSince r.start else 0) =
      (length (stretch r.start r.stop) : Int) := by
  rw [length_stretch hstart hstop, nanosSince_eq hstop hstart]
  have hlt := nanos_lt_iff hstart hstop
  split
  · rename_i h
    have := hlt.mpr h
    omega
  · rename_i h
    have := mt hlt.mp h
    omega

theorem mem_clip_iff {m : Instant} {s : Span .utc} :
    m ∈ s.clip a b ↔ m ∈ stretch a b ∧ m ∈ s := by
  simp only [stretch, Set.mem_ofPred_eq, Span.mem_def, Span.clip, max_le_iff, lt_min_iff]
  tauto

theorem clip_eq_self {s : Span .utc} (ha : a ≤ s.start) (hb : s.stop ≤ b) : s.clip a b = s := by
  rw [Span.clip, max_eq_left ha, min_eq_left hb]

theorem clip_not_leap {s : Span .utc} (ha : ¬ a.IsLeapSecond) (hb : ¬ b.IsLeapSecond)
    (hstart : ¬ s.start.IsLeapSecond) (hstop : ¬ s.stop.IsLeapSecond) :
    ¬ (s.clip a b).start.IsLeapSecond ∧ ¬ (s.clip a b).stop.IsLeapSecond := by
  refine ⟨?_, ?_⟩
  · rcases max_choice s.start a with h | h
    · rwa [Span.clip, h]
    · rwa [Span.clip, h]
  · rcases min_choice s.stop b with h | h
    · rwa [Span.clip, h]
    · rwa [Span.clip, h]

/-! ## Spans together -/

/-- The spans begin and end at instants that are no leap seconds. -/
def OrdinaryEnds (spans : List (Span .utc)) : Prop :=
  ∀ s ∈ spans, ¬ s.start.IsLeapSecond ∧ ¬ s.stop.IsLeapSecond

/-- The length of the spans one by one. -/
noncomputable def lengths (spans : List (Span .utc)) : List Nat :=
  spans.map fun s => length {m | m ∈ s}

variable {spans : List (Span .utc)}

theorem OrdinaryEnds.of_cons {s : Span .utc} (h : OrdinaryEnds (s :: spans)) : OrdinaryEnds spans :=
  fun r hr => h r (List.mem_cons_of_mem s hr)

theorem sum_lengths_cons (s : Span .utc) (rest : List (Span .utc)) :
    (lengths (s :: rest)).sum = length {m | m ∈ s} + (lengths rest).sum := List.sum_cons

theorem OrdinaryEnds.finite_union (h : OrdinaryEnds spans) :
    (ordinary (Span.union spans)).Finite := by
  induction spans with
  | nil => simp [ordinary]
  | cons s rest ih =>
    obtain ⟨hstart, hstop⟩ := h s List.mem_cons_self
    rw [Span.union_cons, ordinary_union]
    exact (finite_ordinary_stretch hstart hstop).union (ih h.of_cons)

/-- Spans that share an instant share one that is no leap second. -/
theorem OrdinaryEnds.length_inter_eq_zero_iff {s : Span .utc} (h : OrdinaryEnds (s :: spans)) :
    length ({m | m ∈ s} ∩ Span.union spans) = 0 ↔ ∀ r ∈ spans, s.Misses r := by
  obtain ⟨hstart, hstop⟩ := h s List.mem_cons_self
  have hfinite : (ordinary ({m | m ∈ s} ∩ Span.union spans)).Finite :=
    finite_ordinary_inter hstart hstop _
  rw [length, Set.ncard_eq_zero hfinite]
  refine ⟨fun hempty r hr m hms hmr => ?_, fun hmiss => ?_⟩
  · have hlater : max s.start r.start ≤ m := max_le hms.1 hmr.1
    obtain ⟨hrstart, hrstop⟩ := h.of_cons r hr
    obtain ⟨hleap, -⟩ := clip_not_leap hrstart hrstop hstart hstop
    refine Set.eq_empty_iff_forall_notMem.mp hempty (max s.start r.start) ⟨⟨?_, r, hr, ?_⟩, hleap⟩
    · exact ⟨le_max_left _ _, hlater.trans_lt hms.2⟩
    · exact ⟨le_max_right _ _, hlater.trans_lt hmr.2⟩
  · refine Set.eq_empty_iff_forall_notMem.mpr ?_
    rintro m ⟨⟨hms, r, hr, hmr⟩, -⟩
    exact hmiss r hr m hms hmr

/-- Spans cover no more than they are long together, and as much just if no two of them share an
instant. -/
theorem OrdinaryEnds.length_union (h : OrdinaryEnds spans) :
    length (Span.union spans) ≤ (lengths spans).sum ∧
      (length (Span.union spans) = (lengths spans).sum ↔ spans.Pairwise Span.Misses) := by
  induction spans with
  | nil => simp [lengths, length_empty]
  | cons s rest ih =>
    obtain ⟨hstart, hstop⟩ := h s List.mem_cons_self
    obtain ⟨hle, heq⟩ := ih h.of_cons
    have hboth : length (Span.union (s :: rest)) + length ({m | m ∈ s} ∩ Span.union rest) =
        length {m | m ∈ s} + length (Span.union rest) := by
      rw [Span.union_cons]
      exact length_union_add_inter (finite_ordinary_stretch hstart hstop) h.of_cons.finite_union
    rw [List.pairwise_cons, ← h.length_inter_eq_zero_iff, ← heq, sum_lengths_cons]
    omega

/-- The nanoseconds counted in spans are their lengths. -/
theorem OrdinaryEnds.totalNanos_eq_sum (h : OrdinaryEnds spans) :
    totalNanos spans = ((lengths spans).sum : Int) := by
  induction spans with
  | nil => rfl
  | cons s rest ih =>
    obtain ⟨hstart, hstop⟩ := h s List.mem_cons_self
    rw [totalNanos_cons, counted_eq_length hstart hstop, ih h.of_cons, sum_lengths_cons,
      Int.natCast_add]
    rfl

/-- The nanoseconds counted in spans that lie apart are the length of what they cover. -/
theorem OrdinaryEnds.totalNanos_eq_length (h : OrdinaryEnds spans)
    (hmiss : spans.Pairwise Span.Misses) :
    totalNanos spans = (length (Span.union spans) : Int) := by
  rw [h.totalNanos_eq_sum, h.length_union.2.mpr hmiss]

/-- Between two instants they are the length of what the spans cover there. -/
theorem totalNanos_clip (h : Span.Apart spans) (hleap : OrdinaryEnds spans)
    (ha : ¬ a.IsLeapSecond) (hb : ¬ b.IsLeapSecond) :
    totalNanos (spans.map (·.clip a b)) = (length (stretch a b ∩ Span.union spans) : Int) := by
  have hclip : OrdinaryEnds (spans.map (·.clip a b)) := by
    intro r hr
    obtain ⟨s, hs, rfl⟩ := List.mem_map.mp hr
    exact clip_not_leap ha hb (hleap s hs).1 (hleap s hs).2
  have hunion : Span.union (spans.map (·.clip a b)) = stretch a b ∩ Span.union spans := by
    ext m
    constructor
    · rintro ⟨r, hr, hm⟩
      obtain ⟨s, hs, rfl⟩ := List.mem_map.mp hr
      exact ⟨(mem_clip_iff.mp hm).1, s, hs, (mem_clip_iff.mp hm).2⟩
    · rintro ⟨hstretch, s, hs, hm⟩
      exact ⟨s.clip a b, List.mem_map_of_mem hs, mem_clip_iff.mpr ⟨hstretch, hm⟩⟩
  have hmiss : (spans.map (·.clip a b)).Pairwise Span.Misses := by
    refine List.pairwise_map.mpr (h.misses.imp fun hmiss m hms hmr => ?_)
    exact hmiss m (mem_clip_iff.mp hms).2 (mem_clip_iff.mp hmr).2
  rw [hclip.totalNanos_eq_length hmiss, hunion]

end Overdue

end Circulation
