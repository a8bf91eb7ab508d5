import Circulation.Proofs.Json.Words
import Circulation.Proofs.Wire.Records
import Circulation.Zone.Named

/-!
# Reading undoes writing

A value that is exchanged in JSON is read back from its text just if its leap seconds are the last
seconds of their minutes and it is not deeper than the reader goes. The exceptions are policies with
a period that is not positive. Reading one of these ends with the reason for which `Period.ofParts`
refuses the first such period, in the order in which the periods are written.
-/

namespace Circulation.Wire

/-! ## Periods that are refused -/

/-- The first of the periods that is not positive. -/
def firstRefused (periods : List Period) : Option Period :=
  periods.find? fun q => q.duration ≤ 0

/-- Reading ends with the reason for which `Period.ofParts` refuses the duration. -/
def RefusedFor {α : Type} (q : Period) (x : Decoded α) : Prop :=
  ∃ e, Period.ofParts "period" (some q.duration) (some q.unit.name) = .error e ∧
    x = .error (.period e) ∧
    e.message = "Invalid duration for field 'period': duration must be positive, got " ++
      toString q.duration

theorem ofParts_eq (q : Period) :
    Period.ofParts "period" (some q.duration) (some q.unit.name) =
      if 0 < q.duration then .ok q
      else .error (.invalidDuration "period"
        ("duration must be positive, got " ++ toString q.duration)) := by
  rw [Period.ofParts, Option.getD_some, PeriodUnit.parse, PeriodUnit.ofName?_name]
  rfl

theorem positive_of_pos {q : Period} (h : 0 < q.duration) : positive q = .ok q := by
  rw [positive, ofParts_eq, if_pos h]

theorem message_invalidDuration (text : String) :
    (Error.invalidDuration "period" ("duration must be positive, got " ++ text)).message =
      "Invalid duration for field 'period': duration must be positive, got " ++ text := by
  have hprefix : "Invalid duration for field '" ++ "period" ++ "': " ++
      "duration must be positive, got " =
      "Invalid duration for field 'period': duration must be positive, got " := by decide
  rw [← hprefix]
  exact String.append_assoc.symm

theorem refusedFor_positive {q : Period} (h : q.duration ≤ 0) : RefusedFor q (positive q) := by
  have hparts := ofParts_eq q
  rw [if_neg (Int.not_lt.mpr h)] at hparts
  exact ⟨_, hparts, by rw [positive, hparts], message_invalidDuration _⟩

theorem RefusedFor.bind {α β : Type} {q : Period} {x : Decoded α} (h : RefusedFor q x)
    (f : α → Decoded β) : RefusedFor q (x >>= f) := by
  obtain ⟨e, hparts, rfl, hmessage⟩ := h
  exact ⟨e, hparts, rfl, hmessage⟩

theorem RefusedFor.map {α β : Type} {q : Period} {x : Decoded α} (h : RefusedFor q x)
    (f : α → β) : RefusedFor q (x.map f) :=
  h.bind fun a => .ok (f a)

theorem maybe_positive_of_forall {o : Option Period} (h : ∀ q ∈ o.toList, 0 < q.duration) :
    maybe positive o = .ok o := by
  cases o with
  | none => rfl
  | some q =>
    rw [maybe, positive_of_pos (h q List.mem_cons_self)]
    rfl

theorem maybe_positive_of_none {o : Option Period} (h : firstRefused o.toList = none) :
    maybe positive o = .ok o := by
  refine maybe_positive_of_forall fun q hq => ?_
  have hq := List.find?_eq_none.mp h q hq
  rw [decide_eq_true_eq] at hq
  exact Int.not_le.mp hq

theorem refusedFor_maybe {o : Option Period} {q : Period} (h : firstRefused o.toList = some q) :
    RefusedFor q (maybe positive o) := by
  have hq : q.duration ≤ 0 := by simpa using List.find?_some h
  have hmem := List.mem_of_find?_eq_some h
  obtain rfl := Option.mem_toList.mp hmem
  exact (refusedFor_positive hq).map some

/-! ## Texts of policies -/

theorem ofText_loanPolicy {p : LoanPolicy} (h : p.Writable)
    (hpos : ∀ q ∈ p.periods, 0 < q.duration) :
    ofText loanPolicy (loanPolicyJson p).toText = .ok p := by
  rw [(reads_loanPolicy h).ofText_eq ((depth_loanPolicyJson_le p).trans (by decide)),
    maybe_positive_of_forall fun q hq => hpos q (List.mem_append_left _ hq),
    maybe_positive_of_forall fun q hq => hpos q (List.mem_append_right _ hq)]
  rfl

theorem refusedFor_loanPolicy {p : LoanPolicy} {q : Period} (h : p.Writable)
    (hq : firstRefused p.periods = some q) :
    RefusedFor q (ofText loanPolicy (loanPolicyJson p).toText) := by
  rw [(reads_loanPolicy h).ofText_eq ((depth_loanPolicyJson_le p).trans (by decide))]
  rw [firstRefused, LoanPolicy.periods, List.find?_append, Option.or_eq_some_iff] at hq
  rcases hq with hperiod | ⟨hperiod, hoffset⟩
  · exact (refusedFor_maybe hperiod).bind _
  · rw [maybe_positive_of_none hperiod, ok_bind]
    exact (refusedFor_maybe hoffset).bind _

theorem ofText_finePolicy {p : FinePolicy} (h : p.Writable)
    (hpos : ∀ q ∈ p.periods, 0 < q.duration) :
    ofText finePolicy (finePolicyJson p).toText = .ok p := by
  rw [(reads_finePolicy h).ofText_eq ((depth_finePolicyJson_le p).trans (by decide)),
    maybe_positive_of_forall hpos]
  rfl

theorem refusedFor_finePolicy {p : FinePolicy} {q : Period} (h : p.Writable)
    (hq : firstRefused p.periods = some q) :
    RefusedFor q (ofText finePolicy (finePolicyJson p).toText) := by
  rw [(reads_finePolicy h).ofText_eq ((depth_finePolicyJson_le p).trans (by decide))]
  exact (refusedFor_maybe hq).bind _

/-! ## Texts of days, loans and calculations -/

variable {zones : Zone.Table}

theorem ofText_openingDay_iff {d : OpeningDay} (h : d.Writable zones) :
    ofText (openingDay zones) (openingDayJson d).toText = .ok d ↔ d.LeapsEndMinutes := by
  rw [(reads_openingDay h).ofText_eq_ok_iff, Except.ok.injEq, OpeningDay.asWritten_eq_iff]
  exact and_iff_right ((depth_openingDayJson_le d).trans (by decide))

theorem ofText_adjacentDays_iff {a : AdjacentDays} (h : a.Writable zones) :
    ofText (adjacentDays zones) (adjacentDaysJson a).toText = .ok a ↔ a.LeapsEndMinutes := by
  rw [(reads_adjacentDays h).ofText_eq_ok_iff, Except.ok.injEq, AdjacentDays.asWritten_eq_iff]
  exact and_iff_right ((depth_adjacentDaysJson_le a).trans (by decide))

theorem ofText_loan_iff {l : Loan} (h : l.Writable) :
    ofText loan (loanJson l).toText = .ok l ↔ l.LeapsEndMinutes := by
  rw [(reads_loan h).ofText_eq_ok_iff, Except.ok.injEq, Loan.asWritten_eq_iff]
  exact and_iff_right ((depth_loanJson_le l).trans (by decide))

theorem ofText_auditStep_iff {s : AuditStep} (h : s.Writable) :
    ofText auditStep (auditStepJson s).toText = .ok s ↔ s.FitsUnder 1 := by
  rw [(reads_auditStep h).ofText_eq_ok_iff, fitsUnder_auditStepJson]
  exact and_iff_left rfl

theorem ofText_calculation_iff {c : Calculation} (h : c.Writable) :
    ofText calculation (calculationJson c).toText = .ok c ↔
      c.dueDate.LeapEndsMinute ∧ ∀ s ∈ c.steps, s.FitsUnder 3 := by
  rw [(reads_calculation h).ofText_eq_ok_iff, Except.ok.injEq, Calculation.asWritten_eq_iff,
    fitsUnder_calculationJson, and_comm]

/-! ## Values of any form in a step -/

theorem words_of_lookup {fs : Fields} {name : String} {j : Json} (h : Json.WordsMembers fs)
    (hname : fs.lookup name = some j) : j.Words := by
  induction fs with
  | nil => cases hname
  | cons m fs ih =>
    rw [Json.lookup_cons] at hname
    split at hname
    · obtain rfl := Option.some.inj hname
      exact h.1
    · exact ih h.2 hname

theorem words_zip {items : List Json} (h : Json.WordsItems items) (names : List String) :
    Json.WordsMembers (names.zip items) := by
  induction names generalizing items with
  | nil => trivial
  | cons name names ih =>
    cases items with
    | nil => trivial
    | cons j items => exact ⟨h.1, ih h.2⟩

theorem words_of_fields {names : List String} {fs : Fields} {j : Json} (h : j.Words)
    (hfs : fields names j = .ok fs) : Json.WordsMembers fs := by
  unfold fields at hfs
  split at hfs
  · obtain rfl := Except.ok.inj hfs
    exact h
  · split at hfs
    · obtain rfl := Except.ok.inj hfs
      exact words_zip h names
    · cases hfs
  · cases hfs

/-- What a step is read with holds integers of 64 bits only. -/
theorem words_of_ofText_auditStep {text : String} {s : AuditStep}
    (h : ofText auditStep text = .ok s) : s.input.Words := by
  obtain ⟨j, hj, h⟩ := bind_eq_ok_iff.mp h
  have hwords : j.Words := by
    cases hread : Json.ofText? text with
    | none => cases hread ▸ hj
    | some j' =>
      obtain rfl : j' = j := by simpa [hread, ofOption] using hj
      exact Json.words_of_ofText? hread
  simp only [auditStep, bind_eq_ok_iff] at h
  obtain ⟨fs, hfs, _, -, _, -, _, -, input, hinput, _, -, _, -, hs⟩ := h
  obtain rfl := Except.ok.inj hs
  unfold required at hinput
  split at hinput
  · obtain rfl := Except.ok.inj hinput
    exact words_of_lookup (words_of_fields hwords hfs) ‹_›
  · cases hinput

/-! ## Texts of all values -/

theorem exists_firstRefused {periods : List Period} (h : ∃ q ∈ periods, q.duration ≤ 0) :
    ∃ q, firstRefused periods = some q := by
  obtain ⟨q, hq, hduration⟩ := h
  refine Option.isSome_iff_exists.mp ?_
  rw [firstRefused, List.find?_isSome]
  exact ⟨q, hq, decide_eq_true hduration⟩

/-- Policies are read back from their texts if their periods are positive, and are otherwise refused
with the reason that belongs to the first period that is not. Days and loans are read back just if
their leap seconds end minutes. A step is read back just if it is not too deep, and so is a
calculation, whose due date must not be a leap second inside a minute either. -/
theorem ofText_undoesWriting :
    (∀ p : LoanPolicy, p.Writable → (∀ q ∈ p.periods, 0 < q.duration) →
      ofText loanPolicy (loanPolicyJson p).toText = .ok p) ∧
    (∀ p : FinePolicy, p.Writable → (∀ q ∈ p.periods, 0 < q.duration) →
      ofText finePolicy (finePolicyJson p).toText = .ok p) ∧
    (∀ (zones : Zone.Table) (d : OpeningDay), d.Writable zones →
      (ofText (openingDay zones) (openingDayJson d).toText = .ok d ↔ d.LeapsEndMinutes)) ∧
    (∀ (zones : Zone.Table) (a : AdjacentDays), a.Writable zones →
      (ofText (adjacentDays zones) (adjacentDaysJson a).toText = .ok a ↔ a.LeapsEndMinutes)) ∧
    (∀ l : Loan, l.Writable →
      (ofText loan (loanJson l).toText = .ok l ↔ l.LeapsEndMinutes)) ∧
    (∀ s : AuditStep, s.Writable →
      (ofText auditStep (auditStepJson s).toText = .ok s ↔ s.FitsUnder 1)) ∧
    (∀ c : Calculation, c.Writable →
      (ofText calculation (calculationJson c).toText = .ok c ↔
        c.dueDate.LeapEndsMinute ∧ ∀ s ∈ c.steps, s.FitsUnder 3)) ∧
    (∀ p : LoanPolicy, p.Writable → (∃ q ∈ p.periods, q.duration ≤ 0) →
      ∃ q, firstRefused p.periods = some q ∧
        RefusedFor q (ofText loanPolicy (loanPolicyJson p).toText)) ∧
    (∀ p : FinePolicy, p.Writable → (∃ q ∈ p.periods, q.duration ≤ 0) →
      ∃ q, firstRefused p.periods = some q ∧
        RefusedFor q (ofText finePolicy (finePolicyJson p).toText)) := by
  refine ⟨fun _ h hpos => ofText_loanPolicy h hpos, fun _ h hpos => ofText_finePolicy h hpos,
    fun _ _ h => ofText_openingDay_iff h, fun _ _ h => ofText_adjacentDays_iff h,
    fun _ h => ofText_loan_iff h, fun _ h => ofText_auditStep_iff h,
    fun _ h => ofText_calculation_iff h, fun p h hp => ?_, fun p h hp => ?_⟩
  · obtain ⟨q, hq⟩ := exists_firstRefused hp
    exact ⟨q, hq, refusedFor_loanPolicy h hq⟩
  · obtain ⟨q, hq⟩ := exists_firstRefused hp
    exact ⟨q, hq, refusedFor_finePolicy h hq⟩

/-- A policy with the first and the last date, the greatest duration and text to be escaped. -/
def farPolicy (offset : Int) : LoanPolicy where
  id := "far"
  name := "\"far\"\n\x01"
  profile := .rolling
  period := some ⟨9223372036854775807, .months⟩
  management := .beginningOfNextOpenHours
  schedule := some ⟨"", [⟨.first, .last, .last⟩, ⟨⟨-738000⟩, ⟨0⟩, ⟨3000000⟩⟩]⟩
  limit := none
  openingOffset := some ⟨offset, .minutes⟩

def gracePolicy (grace : Int) : FinePolicy := ⟨"grace", some false, none, some ⟨grace, .hours⟩⟩

/-- Open from the middle of a second to the end of a leap second. -/
def leapDay : OpeningDay where
  date := .last
  allDay := false
  opens := true
  hours := [⟨⟨35100, 500000000, by omega, by omega⟩, ⟨79199, 1999999999, by omega, by omega⟩⟩]
  zone := Zone.apia

def leapDays : AdjacentDays :=
  ⟨.closed .first Zone.usEastern, .aroundTheClock ⟨-1⟩ Zone.troll, leapDay⟩

def everyDigit : Identifier := ⟨List.finRange 16 ++ List.finRange 16, by decide⟩

/-- A loan that is due in a leap second. -/
def leapLoan : Loan where
  id := "é\\"
  loanDate := ⟨-62167219201, 1000, by decide⟩
  dueDate := ⟨1483228799, 1500000000, by decide⟩
  checkoutServicePoint := everyDigit
  primaryServicePoint := some everyDigit
  recalled := true

def nestedStep : AuditStep where
  number := 4294967295
  ruleId := "R-1"
  ruleName := "nested"
  input := .obj [("", .arr [.int (-9223372036854775808), .null]),
    ("due", .obj [("\t", .int 18446744073709551615)]), ("é", .str "\x7f")]
  output := .bool true
  reasoning := ""

def nestedCalculation : Calculation := ⟨⟨"loan", leapLoan.dueDate, [nestedStep]⟩, everyDigit⟩

theorem ofText_undoesWriting_extremes :
    ((farPolicy 5).Writable ∧ (∀ q ∈ (farPolicy 5).periods, 0 < q.duration) ∧
      ofText loanPolicy (loanPolicyJson (farPolicy 5)).toText = .ok (farPolicy 5)) ∧
    ((gracePolicy 1).Writable ∧ (∀ q ∈ (gracePolicy 1).periods, 0 < q.duration) ∧
      ofText finePolicy (finePolicyJson (gracePolicy 1)).toText = .ok (gracePolicy 1)) ∧
    (leapDay.Writable Zone.named? ∧
      ofText (openingDay Zone.named?) (openingDayJson leapDay).toText = .ok leapDay) ∧
    (leapDays.Writable Zone.named? ∧
      ofText (adjacentDays Zone.named?) (adjacentDaysJson leapDays).toText = .ok leapDays) ∧
    (leapLoan.Writable ∧ ofText loan (loanJson leapLoan).toText = .ok leapLoan) ∧
    (nestedStep.Writable ∧ ofText auditStep (auditStepJson nestedStep).toText = .ok nestedStep) ∧
    (nestedCalculation.Writable ∧
      ofText calculation (calculationJson nestedCalculation).toText = .ok nestedCalculation) ∧
    ((farPolicy (-5)).Writable ∧
      RefusedFor ⟨-5, .minutes⟩ (ofText loanPolicy (loanPolicyJson (farPolicy (-5))).toText)) ∧
    ((gracePolicy 0).Writable ∧
      RefusedFor ⟨0, .hours⟩ (ofText finePolicy (finePolicyJson (gracePolicy 0)).toText)) := by
  obtain ⟨hloanPolicy, hfinePolicy, hopeningDay, hadjacentDays, hloan, hauditStep, hcalculation,
    hloanRefused, hfineRefused⟩ := ofText_undoesWriting
  have hstep : nestedStep.Writable := by
    refine ⟨by decide, ⟨?_, ?_⟩, ⟨trivial, trivial⟩⟩
    · simp [nestedStep, Json.Numbers, Json.NumbersMembers, Json.NumbersItems, Json.IsWord]
    · simp only [nestedStep, Json.Sorted, Json.SortedMembers, Json.SortedItems]
      decide
  have hfits : nestedStep.FitsUnder 3 := by decide
  have hfar : (farPolicy 5).Writable ∧ (farPolicy (-5)).Writable := by decide
  have hgrace : (gracePolicy 1).Writable ∧ (gracePolicy 0).Writable := by decide
  have hdays : leapDays.Writable Zone.named? := by decide +kernel
  have hleap : leapLoan.Writable := by decide
  have hsteps : nestedCalculation.Writable := ⟨hleap.dueDate, by simpa [nestedCalculation]⟩
  have hfarPositive : ∀ q ∈ (farPolicy 5).periods, 0 < q.duration := by decide
  have hgracePositive : ∀ q ∈ (gracePolicy 1).periods, 0 < q.duration := by decide
  obtain ⟨q, hq, hoffset⟩ := hloanRefused (farPolicy (-5)) hfar.2 ⟨⟨-5, .minutes⟩, by decide⟩
  obtain ⟨q', hq', hzero⟩ := hfineRefused (gracePolicy 0) hgrace.2 ⟨⟨0, .hours⟩, by decide⟩
  obtain rfl : ⟨-5, .minutes⟩ = q := Option.some.inj hq
  obtain rfl : ⟨0, .hours⟩ = q' := Option.some.inj hq'
  exact ⟨⟨hfar.1, hfarPositive, hloanPolicy _ hfar.1 hfarPositive⟩,
    ⟨hgrace.1, hgracePositive, hfinePolicy _ hgrace.1 hgracePositive⟩,
    ⟨hdays.next, (hopeningDay _ _ hdays.next).mpr (by decide)⟩,
    ⟨hdays, (hadjacentDays _ _ hdays).mpr (by decide)⟩,
    ⟨hleap, (hloan _ hleap).mpr (by decide)⟩, ⟨hstep, (hauditStep _ hstep).mpr (by decide)⟩,
    ⟨hsteps, (hcalculation _ hsteps).mpr ⟨by decide, by simpa [nestedCalculation]⟩⟩,
    ⟨hfar.2, hoffset⟩, ⟨hgrace.2, hzero⟩⟩

/-! ## Values that are not read back -/

/-- A number of lists inside each other. -/
def nest : Nat → Json
  | 0 => .null
  | n + 1 => .arr [nest n]

theorem canonical_nest (n : Nat) : (nest n).Canonical := by
  induction n with
  | zero => exact ⟨trivial, trivial⟩
  | succ n ih => exact ⟨⟨ih.whole, trivial⟩, ⟨ih.sorted, trivial⟩⟩

theorem depth_nest (n : Nat) : (nest n).depth = n := by
  induction n with
  | zero => rfl
  | succ n ih => rw [nest, Json.depth, Json.depthItems, Json.depthItems, ih, Nat.max_zero]

/-- A loan date in a leap second after 00:00:00, a value under 127 lists, and an integer of 68 bits
are written but not read back. -/
theorem ofText_undoesWriting_exceptions :
    let insideLoan : Loan := { leapLoan with loanDate := ⟨0, 1500000000, by decide⟩ }
    let deepStep : AuditStep := { nestedStep with input := nest 127 }
    let greatStep : AuditStep := { nestedStep with input := .int 147573952589676412928 }
    insideLoan.Writable ∧ ofText loan (loanJson insideLoan).toText ≠ .ok insideLoan ∧
    deepStep.input.Canonical ∧ ofText auditStep (auditStepJson deepStep).toText ≠ .ok deepStep ∧
    ofText auditStep (auditStepJson greatStep).toText ≠ .ok greatStep := by
  intro insideLoan deepStep greatStep
  have hloan : insideLoan.Writable := by decide
  have hdeep : deepStep.Writable := ⟨by decide, canonical_nest 127, ⟨trivial, trivial⟩⟩
  refine ⟨hloan, fun h => ?_, hdeep.input, fun h => ?_, fun h => ?_⟩
  · exact absurd ((ofText_loan_iff hloan).mp h) (by decide)
  · have hfits := ((ofText_auditStep_iff hdeep).mp h).1
    rw [show deepStep.input.depth = 127 from depth_nest 127] at hfits
    exact absurd hfits (by decide)
  · have hword : Json.IsWord 147573952589676412928 := words_of_ofText_auditStep h
    exact absurd hword.2 (by decide)

end Circulation.Wire
