import Circulation.Calendar
import Circulation.Proofs.Time.Order
import Circulation.Zone.Named
import Mathlib.Data.List.Induction

/-!
# Calendars made of records

A calendar that is recorded day by day holds the latest record of each date. The zone of a service
point is that of its first record.
-/

namespace Circulation

/-- The identifier whose digits are all zero. -/
def Identifier.zero : Identifier := ⟨.replicate 32 0, rfl⟩

namespace OpeningDay

/-- Hours from ten at night on 9 March 2026 to two in the morning. -/
def nightHours : OpeningDay :=
  let clock hour := (TimeOfDay.ofClock? hour 0 0 0).getD .midnight
  .withHours ⟨20521⟩ Zone.tokyo [⟨clock 22, clock 2⟩]

/-- Hours from nine to five on 11 March 2026. -/
def dayHours : OpeningDay :=
  let clock hour := (TimeOfDay.ofClock? hour 0 0 0).getD .midnight
  .withHours ⟨20523⟩ Zone.tokyo [⟨clock 9, clock 17⟩]

end OpeningDay

namespace Register

theorem mem_insertDay_iff {day e : OpeningDay} {days : List OpeningDay}
    (h : days.Pairwise fun a b => a.date < b.date) :
    e ∈ insertDay day days ↔ e = day ∨ e ∈ days ∧ e.date ≠ day.date := by
  fun_induction insertDay day days with
  | case1 => simp
  | case2 d rest hlt =>
    have hne : ∀ e ∈ d :: rest, e.date ≠ day.date := by
      intro e he
      rcases List.mem_cons.mp he with rfl | he
      · exact hlt.ne'
      · exact (hlt.trans (List.rel_of_pairwise_cons h he)).ne'
    rw [List.mem_cons]
    exact or_congr_right ⟨fun he => ⟨he, hne e he⟩, And.left⟩
  | case3 d rest hlt heq =>
    have hne : ∀ e ∈ rest, e.date ≠ day.date := fun e he =>
      heq ▸ (List.rel_of_pairwise_cons h he).ne'
    rw [List.mem_cons, List.mem_cons]
    refine or_congr_right ⟨fun he => ⟨.inr he, hne e he⟩, ?_⟩
    rintro ⟨rfl | he, hdate⟩
    · exact absurd heq.symm hdate
    · exact he
  | case4 d rest hlt hne ih =>
    rw [List.mem_cons, List.mem_cons, ih h.of_cons]
    refine ⟨?_, ?_⟩
    · rintro (rfl | rfl | ⟨he, hdate⟩)
      · exact .inr ⟨.inl rfl, Ne.symm hne⟩
      · exact .inl rfl
      · exact .inr ⟨.inr he, hdate⟩
    · rintro (rfl | ⟨rfl | he, hdate⟩)
      · exact .inr (.inl rfl)
      · exact .inl rfl
      · exact .inr (.inr ⟨he, hdate⟩)

end Register

namespace Calendar

variable {records : List (ServicePoint × OpeningDay)} {sp other : ServicePoint}
  {day : OpeningDay}

/-! ## One record -/

/-- Recording a day touches the register of its service point only. -/
theorem register?_addDay (c : Calendar) (sp : ServicePoint) (day : OpeningDay)
    (other : ServicePoint) :
    (c.addDay sp day).register? other =
      if other = sp then some (((c.register? sp).map (·.insert day)).getD (.single day))
      else c.register? other := by
  have hlookup : ∀ registers : List (ServicePoint × Register),
      (record sp day registers).lookup other =
        if other = sp then some (((registers.lookup sp).map (·.insert day)).getD (.single day))
        else registers.lookup other := by
    intro registers
    induction registers with
    | nil =>
      by_cases h : other = sp
      · simp [record, h]
      · have hother : (other == sp) = false := by simpa using h
        simp [record, List.lookup_cons, h, hother]
    | cons head rest ih =>
      obtain ⟨key, r⟩ := head
      by_cases hkey : sp = key
      · subst hkey
        by_cases h : other = sp
        · simp [record, h]
        · have hother : (other == sp) = false := by simpa using h
          simp [record, List.lookup_cons, h, hother]
      · have hsp : (sp == key) = false := by simpa using hkey
        by_cases h : other = key
        · subst h
          simp [record, hkey, Ne.symm hkey]
        · have hother : (other == key) = false := by simpa using h
          simp only [record, if_neg hkey, List.lookup_cons, hother, hsp]
          exact ih
  exact hlookup c.registers

/-! ## All records -/

/-- The calendar in which the days are recorded one after the other. -/
def ofRecords (records : List (ServicePoint × OpeningDay)) : Calendar :=
  records.foldl (fun c record => c.addDay record.1 record.2) .empty

/-- The day is recorded for the service point and no later record replaces it. -/
def Recorded (records : List (ServicePoint × OpeningDay)) (sp : ServicePoint)
    (day : OpeningDay) : Prop :=
  ∃ before after, records = before ++ (sp, day) :: after ∧
    ∀ record ∈ after, record.1 = sp → record.2.date ≠ day.date

theorem Recorded.mem (h : Recorded records sp day) : (sp, day) ∈ records := by
  obtain ⟨before, after, rfl, -⟩ := h
  exact List.mem_append_right _ List.mem_cons_self

theorem recorded_concat {record : ServicePoint × OpeningDay} :
    Recorded (records ++ [record]) sp day ↔ record = (sp, day) ∨
      Recorded records sp day ∧ (record.1 = sp → record.2.date ≠ day.date) := by
  refine ⟨?_, ?_⟩
  · rintro ⟨before, after, heq, hafter⟩
    rcases List.eq_nil_or_concat after with rfl | ⟨after, last, rfl⟩
    · obtain ⟨-, hlast⟩ := List.append_inj' heq rfl
      exact .inl (List.singleton_inj.mp hlast)
    · rw [List.concat_eq_append, ← List.cons_append, ← List.append_assoc] at heq
      obtain ⟨rfl, hlast⟩ := List.append_inj' heq rfl
      obtain rfl := List.singleton_inj.mp hlast
      rw [List.concat_eq_append] at hafter
      refine .inr ⟨⟨before, after, rfl, fun record hrecord => ?_⟩, ?_⟩
      · exact hafter record (List.mem_append_left _ hrecord)
      · exact hafter record (List.mem_append_right _ List.mem_cons_self)
  · rintro (rfl | ⟨⟨before, after, rfl, hafter⟩, hdate⟩)
    · exact ⟨records, [], rfl, by simp⟩
    · refine ⟨before, after ++ [record], by simp, fun other hother => ?_⟩
      rcases List.mem_append.mp hother with hother | hother
      · exact hafter other hother
      · rw [List.mem_singleton.mp hother]
        exact hdate

/-- Where no two records of a service point have the same date, none is replaced. -/
theorem recorded_iff_mem (h : records.Pairwise fun a b => a.1 = b.1 → a.2.date ≠ b.2.date) :
    Recorded records sp day ↔ (sp, day) ∈ records := by
  refine ⟨Recorded.mem, fun hmem => ?_⟩
  obtain ⟨before, after, rfl⟩ := List.append_of_mem hmem
  refine ⟨before, after, rfl, fun record hrecord hsp hdate => ?_⟩
  have hafter := (List.pairwise_append.mp h).2.1
  exact List.rel_of_pairwise_cons hafter hrecord hsp.symm hdate.symm

theorem not_recorded (h : records.lookup sp = none) : ¬ Recorded records sp day := by
  intro hday
  have hne := List.lookup_eq_none_iff.mp h _ hday.mem
  simp at hne

/-- What the records say about the register of a service point. -/
def Agrees (records : List (ServicePoint × OpeningDay)) (sp : ServicePoint) :
    Option Register → Prop
  | none => records.lookup sp = none
  | some r => (∃ first, records.lookup sp = some first ∧ r.zone = first.zone) ∧
    ∀ day, day ∈ r.days ↔ Recorded records sp day

theorem Agrees.addDay {c : Calendar} (h : Agrees records sp (c.register? sp))
    (other : ServicePoint) (day : OpeningDay) :
    Agrees (records ++ [(other, day)]) sp ((c.addDay other day).register? sp) := by
  rw [register?_addDay]
  by_cases hother : sp = other
  · subst hother
    rw [if_pos rfl]
    cases hr : c.register? sp with
    | none =>
      rw [hr] at h
      have hlookup : records.lookup sp = none := h
      refine ⟨⟨day, ?_, rfl⟩, fun e => ?_⟩
      · rw [List.lookup_append, hlookup]
        simp
      · show e ∈ [day] ↔ _
        rw [List.mem_singleton, recorded_concat]
        simp [not_recorded hlookup, eq_comm]
    | some r =>
      rw [hr] at h
      obtain ⟨⟨first, hfirst, hzone⟩, hdays⟩ := h
      refine ⟨⟨first, ?_, hzone⟩, fun e => ?_⟩
      · rw [List.lookup_append, hfirst]
        rfl
      · show e ∈ Register.insertDay day r.days ↔ _
        rw [Register.mem_insertDay_iff r.sorted, recorded_concat, hdays]
        simp [eq_comm]
  · rw [if_neg hother]
    have hne : (sp == other) = false := by simpa using hother
    have hlast : [(other, day)].lookup sp = none := by simp [List.lookup_cons, hne]
    have hrecorded : ∀ e, Recorded (records ++ [(other, day)]) sp e ↔ Recorded records sp e := by
      intro e
      rw [recorded_concat]
      simp [Ne.symm hother]
    cases hr : c.register? sp with
    | none =>
      rw [hr] at h
      have hlookup : records.lookup sp = none := h
      show (records ++ [(other, day)]).lookup sp = none
      rw [List.lookup_append, hlookup, hlast]
      rfl
    | some r =>
      rw [hr] at h
      obtain ⟨⟨first, hfirst, hzone⟩, hdays⟩ := h
      refine ⟨⟨first, ?_, hzone⟩, fun e => (hdays e).trans (hrecorded e).symm⟩
      rw [List.lookup_append, hfirst]
      rfl

/-- The registers of a calendar agree with the records it is made of. -/
theorem agrees_ofRecords (records : List (ServicePoint × OpeningDay)) (sp : ServicePoint) :
    Agrees records sp ((ofRecords records).register? sp) := by
  induction records using List.reverseRecOn with
  | nil => rfl
  | append_singleton records record ih =>
    have hstep : ofRecords (records ++ [record]) =
        (ofRecords records).addDay record.1 record.2 := by
      simp [ofRecords, List.foldl_append]
    rw [hstep]
    exact ih.addDay record.1 record.2

/-- The days that a calendar holds are the ones recorded. -/
theorem recorded_iff_mem_days {days : List OpeningDay}
    (h : ((ofRecords records).register? sp).map (·.days) = some days) :
    Recorded records sp day ↔ day ∈ days := by
  have hagrees := agrees_ofRecords records sp
  obtain ⟨r, hr, rfl⟩ := Option.map_eq_some_iff.mp h
  rw [hr] at hagrees
  exact (hagrees.2 day).symm

/-- A register found in the calendar agrees with the records. -/
theorem agrees_of_register {r : Register} (h : (ofRecords records).register sp = .ok r) :
    Agrees records sp (some r) := by
  have hagrees := agrees_ofRecords records sp
  unfold register at h
  cases hr : (ofRecords records).register? sp with
  | none =>
    rw [hr] at h
    cases h
  | some other =>
    rw [hr] at h hagrees
    obtain rfl := Except.ok.inj h
    exact hagrees

theorem exists_mem_of_register {r : Register} (h : (ofRecords records).register sp = .ok r) :
    ∃ day, (sp, day) ∈ records := by
  obtain ⟨⟨first, hfirst, -⟩, -⟩ := agrees_of_register h
  obtain ⟨before, after, heq, -⟩ := List.lookup_eq_some_iff.mp hfirst
  exact ⟨first, heq ▸ List.mem_append_right _ List.mem_cons_self⟩

/-- A service point with a first record has a register of that record's zone and of the days
recorded. -/
theorem exists_register_of_lookup {first : OpeningDay} (h : records.lookup sp = some first) :
    ∃ r, (ofRecords records).register sp = .ok r ∧ r.zone = first.zone ∧
      ∀ day, day ∈ r.days ↔ Recorded records sp day := by
  have hagrees := agrees_ofRecords records sp
  cases hr : (ofRecords records).register? sp with
  | none =>
    rw [hr] at hagrees
    cases h.symm.trans hagrees
  | some r =>
    rw [hr] at hagrees
    obtain ⟨⟨other, hother, hzone⟩, hdays⟩ := hagrees
    obtain rfl := Option.some.inj (hother.symm.trans h)
    exact ⟨r, by rw [register, hr], hzone, hdays⟩

/-- A service point for which a day is recorded has a register, of the days recorded. -/
theorem exists_register (h : ∃ day, (sp, day) ∈ records) :
    ∃ r first, (ofRecords records).register sp = .ok r ∧ (sp, first) ∈ records ∧
      r.zone = first.zone ∧ ∀ day, day ∈ r.days ↔ Recorded records sp day := by
  obtain ⟨day, hday⟩ := h
  cases hlookup : records.lookup sp with
  | none =>
    have hne := List.lookup_eq_none_iff.mp hlookup _ hday
    simp at hne
  | some first =>
    obtain ⟨r, hr, hzone, hdays⟩ := exists_register_of_lookup hlookup
    obtain ⟨before, after, rfl, -⟩ := List.lookup_eq_some_iff.mp hlookup
    exact ⟨r, first, hr, List.mem_append_right _ List.mem_cons_self, hzone, hdays⟩

/-! ## Calls -/

/-- One call that records days for a service point. -/
inductive Call where
  | addDay (servicePoint : ServicePoint) (day : OpeningDay)
  | addDays (servicePoint : ServicePoint) (days : List OpeningDay)

def Call.apply (c : Calendar) : Call → Calendar
  | addDay servicePoint day => c.addDay servicePoint day
  | addDays servicePoint days => c.addDays servicePoint days

/-- The days that the call records, one by one. -/
def Call.entries : Call → List (ServicePoint × OpeningDay)
  | addDay servicePoint day => [(servicePoint, day)]
  | addDays servicePoint days => days.map (servicePoint, ·)

/-- The calendar after some calls. -/
def ofCalls (calls : List Call) : Calendar := calls.foldl Call.apply .empty

theorem Call.apply_eq (c : Calendar) (call : Call) :
    call.apply c = call.entries.foldl (fun c record => c.addDay record.1 record.2) c := by
  cases call with
  | addDay servicePoint day => rfl
  | addDays servicePoint days => rw [entries, List.foldl_map]; rfl

theorem ofCalls_eq (calls : List Call) :
    ofCalls calls = ofRecords (calls.flatMap Call.entries) := by
  rw [ofCalls, ofRecords, List.foldl_flatMap]
  congr
  funext c call
  exact call.apply_eq c

end Calendar

end Circulation
