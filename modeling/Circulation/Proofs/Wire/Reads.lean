import Circulation.Proofs.Json.RoundTrip
import Circulation.Proofs.Time.Text
import Circulation.Wire.Basic
import Mathlib.Data.List.Nodup

/-!
# Reading what was written

A text is read in two steps: first the JSON value, whose objects come out in order, and then what
the value stands for. `Reads` says what the second step gives, so that what is read of a record
follows from what is read of its fields. A field is found by its name wherever it stands.
-/

namespace Circulation

/-! ## Identifiers -/

namespace Identifier

/-- The hyphens of the grouped form stand where they are looked for. -/
theorem ungroup?_append {a b c d : List Char} (e : List Char) (ha : a.length = 8)
    (hb : b.length = 4) (hc : c.length = 4) (hd : d.length = 4) :
    ungroup? (a ++ '-' :: (b ++ '-' :: (c ++ '-' :: (d ++ '-' :: e)))) =
      some (a ++ b ++ c ++ d ++ e) := by
  generalize htext : a ++ '-' :: (b ++ '-' :: (c ++ '-' :: (d ++ '-' :: e))) = cs
  have hfirst : cs.drop 8 = '-' :: (b ++ '-' :: (c ++ '-' :: (d ++ '-' :: e))) := by
    rw [← htext, List.drop_left' ha]
  have hsecond : cs.drop 13 = '-' :: (c ++ '-' :: (d ++ '-' :: e)) := by
    rw [show 13 = 8 + 5 from rfl, ← List.drop_drop, hfirst, List.drop_succ_cons, List.drop_left' hb]
  have hthird : cs.drop 18 = '-' :: (d ++ '-' :: e) := by
    rw [show 18 = 13 + 5 from rfl, ← List.drop_drop, hsecond, List.drop_succ_cons,
      List.drop_left' hc]
  have hfourth : cs.drop 23 = '-' :: e := by
    rw [show 23 = 18 + 5 from rfl, ← List.drop_drop, hthird, List.drop_succ_cons,
      List.drop_left' hd]
  simp only [ungroup?, hfirst, hsecond, hthird, hfourth, List.take_left' hb, List.take_left' hc,
    List.take_left' hd]
  rw [← htext, List.take_left' ha]

theorem ofHex?_hexChar (id : Identifier) : ofHex? (id.digits.map hexChar) = some id := by
  have hdigits : ∀ ds : List (Fin 16), (ds.map hexChar).mapM hexValue? = some ds := by
    intro ds
    induction ds with
    | nil => rfl
    | cons d ds ih => rw [List.map_cons, List.mapM_cons, hexValue?_hexChar, ih]; rfl
  simp only [ofHex?, hdigits, Option.bind_eq_bind, Option.bind_some, dif_pos id.length_eq]

theorem group_append (hex : List Char) :
    hex.take 8 ++ (hex.drop 8).take 4 ++ (hex.drop 12).take 4 ++ (hex.drop 16).take 4 ++
      hex.drop 20 = hex := by
  have hfirst := List.take_append_drop 8 hex
  have hsecond := List.take_append_drop 4 (hex.drop 8)
  have hthird := List.take_append_drop 4 (hex.drop 12)
  have hfourth := List.take_append_drop 4 (hex.drop 16)
  rw [List.drop_drop] at hsecond hthird hfourth
  rw [List.append_assoc, hfourth, List.append_assoc, hthird, List.append_assoc, hsecond, hfirst]

theorem ofText?_toText (id : Identifier) : ofText? id.toText = some id := by
  have hdigits := id.ofHex?_hexChar
  have hlength : (id.digits.map hexChar).length = 32 := by rw [List.length_map, id.length_eq]
  simp only [ofText?, toText, String.toList_ofList, List.append_assoc, List.cons_append]
  generalize id.digits.map hexChar = hex at hdigits hlength ⊢
  have hgroups := ungroup?_append (hex.drop 20) (show (hex.take 8).length = 8 by simp [hlength])
    (show ((hex.drop 8).take 4).length = 4 by simp [hlength])
    (show ((hex.drop 12).take 4).length = 4 by simp [hlength])
    (show ((hex.drop 16).take 4).length = 4 by simp [hlength])
  rw [group_append] at hgroups
  generalize hcs : hex.take 8 ++ '-' :: ((hex.drop 8).take 4 ++ '-' :: ((hex.drop 12).take 4 ++
    '-' :: ((hex.drop 16).take 4 ++ '-' :: hex.drop 20))) = cs at hgroups ⊢
  have hcount : cs.length = 36 := by
    rw [← hcs]
    simp [hlength]
  rw [ofChars?, if_neg (by omega), unwrap?, if_pos hcount, Option.bind_some, hgroups,
    Option.bind_some, hdigits]

end Identifier

namespace Wire

variable {α : Type} {read : Json → Decoded α} {write : α → Json} {j : Json} {a : α}
  {x : Decoded α} {name : String} {ms : List (String × Json)}

/-- What a text is read as. -/
def ofText (read : Json → Decoded α) (s : String) : Decoded α := do
  let j ← ofOption (Json.ofText? s)
  read j

/-- The value can be read back from its text, and then it is read as `x`. -/
structure Reads (read : Json → Decoded α) (j : Json) (x : Decoded α) : Prop where
  whole : j.Whole
  ordered : read j.ordered = x

theorem ok_bind {β : Type} (a : α) (f : α → Decoded β) : (.ok a : Decoded α) >>= f = f a := rfl

theorem bind_eq_ok_iff {β : Type} {f : α → Decoded β} {b : β} :
    x >>= f = .ok b ↔ ∃ a, x = .ok a ∧ f a = .ok b := by
  cases x <;> simp [bind, Except.bind]

theorem Reads.ofText_eq (h : Reads read j x) (hdepth : j.depth ≤ Json.maxDepth) :
    ofText read j.toText = x := by
  rw [ofText, Json.ofText?_toText h.whole, if_pos hdepth]
  exact h.ordered

/-- A value that is too deep is read as nothing at all. -/
theorem Reads.ofText_eq_ok_iff (h : Reads read j x) :
    ofText read j.toText = .ok a ↔ j.depth ≤ Json.maxDepth ∧ x = .ok a := by
  by_cases hdepth : j.depth ≤ Json.maxDepth
  · rw [h.ofText_eq hdepth, and_iff_right hdepth]
  · rw [ofText, Json.ofText?_toText h.whole, if_neg hdepth]
    exact iff_of_false nofun fun hread => hdepth hread.1

/-! ## Scalars -/

theorem reads_string (s : String) : Reads string (.str s) (.ok s) := ⟨trivial, rfl⟩

theorem reads_bool (b : Bool) : Reads bool (.bool b) (.ok b) := ⟨trivial, rfl⟩

theorem reads_text {ofText? : String → Option α} {s : String} (h : ofText? s = some a) :
    Reads (text ofText?) (.str s) (.ok a) :=
  ⟨trivial, congrArg ofOption h⟩

theorem reads_tag {ofName? : String → Option α} {s : String} (h : ofName? s = some a) :
    Reads (tag ofName?) (.str s) (.ok a) :=
  ⟨trivial, congrArg ofOption h⟩

theorem reads_date {d : Date} (h : d.InRange) : Reads date (dateJson d) (.ok d) :=
  reads_text (Date.ofText?_toText h)

theorem reads_timeOfDay (t : TimeOfDay) : Reads timeOfDay (timeOfDayJson t) (.ok t.asWritten) :=
  reads_text t.ofText?_toText

theorem reads_instant {t : Instant} (h : t.InRange) :
    Reads instant (instantJson t) (.ok t.asWritten) :=
  reads_text (Instant.ofText?_toText h)

theorem reads_zone {zones : Zone.Table} {z : Zone} (h : zones z.name = some z) :
    Reads (zone zones) (zoneJson z) (.ok z) :=
  reads_text h

theorem reads_identifier (id : Identifier) : Reads identifier (identifierJson id) (.ok id) :=
  reads_text id.ofText?_toText

theorem intBetween_int {least greatest n : Int} (h : least ≤ n ∧ n ≤ greatest) :
    intBetween least greatest (.int n) = .ok n :=
  if_pos h

theorem reads_int {n : Int} (h : -9223372036854775808 ≤ n ∧ n ≤ 9223372036854775807) :
    Reads int (.int n) (.ok n) := by
  refine ⟨?_, intBetween_int h⟩
  simp only [Json.Whole, Json.Numbers, Json.IsWord]
  omega

theorem reads_count {n : Nat} (h : n ≤ 4294967295) : Reads count (.int n) (.ok n) := by
  have hread : intBetween 0 4294967295 (.int n) = .ok (n : Int) := intBetween_int (by omega)
  refine ⟨?_, ?_⟩
  · simp only [Json.Whole, Json.Numbers, Json.IsWord]
    omega
  · simp only [count, Json.ordered, hread, ok_bind, Int.toNat_natCast]
    rfl

/-! ## Lists and values that may be missing -/

theorem reads_list_map {f : α → α} {as : List α}
    (h : ∀ a ∈ as, Reads read (write a) (.ok (f a))) :
    Reads (list read) (listJson write as) (.ok (as.map f)) := by
  induction as with
  | nil => exact ⟨trivial, rfl⟩
  | cons a as ih =>
    have ha := h a List.mem_cons_self
    have has := ih fun a ha => h a (List.mem_cons_of_mem _ ha)
    refine ⟨⟨ha.whole, has.whole⟩, ?_⟩
    have htail : (Json.orderedItems (as.map write)).mapM read = .ok (as.map f) := has.ordered
    simp only [list, listJson, List.map_cons, Json.ordered, Json.orderedItems, List.mapM_cons,
      ha.ordered, htail, ok_bind]
    rfl

theorem reads_list {as : List α} (h : ∀ a ∈ as, Reads read (write a) (.ok a)) :
    Reads (list read) (listJson write as) (.ok as) := by
  have hlist : Reads (list read) (listJson write as) (.ok (as.map id)) := reads_list_map h
  rwa [List.map_id] at hlist

theorem depth_listJson_le_iff {as : List α} {n : Nat} :
    (listJson write as).depth ≤ n + 1 ↔ ∀ a ∈ as, (write a).depth ≤ n := by
  rw [listJson, Json.depth_arr_le_iff, List.forall_mem_map]

theorem depth_optionJson_le {o : Option α} {n : Nat} (h : ∀ a, (write a).depth ≤ n) :
    (optionJson write o).depth ≤ n := by
  cases o with
  | none => exact Nat.zero_le n
  | some a => exact h a

/-- What a value that may be missing is read as. -/
def maybe (outcome : α → Decoded α) : Option α → Decoded (Option α)
  | none => .ok none
  | some a => (outcome a).map some

theorem maybe_ok (o : Option α) : maybe .ok o = .ok o := by
  cases o <;> rfl

theorem reads_present (h : Reads read j x) (hnull : j.ordered ≠ .null) :
    Reads (nullable read) j (x.map some) := by
  refine ⟨h.whole, ?_⟩
  rw [nullable, h.ordered]
  exact hnull

theorem reads_optionJson {outcome : α → Decoded α} {o : Option α}
    (h : ∀ a ∈ o, Reads read (write a) (outcome a)) (hnull : ∀ a, (write a).ordered ≠ .null) :
    Reads (nullable read) (optionJson write o) (maybe outcome o) := by
  cases o with
  | none => exact ⟨trivial, rfl⟩
  | some a => exact reads_present (h a rfl) (hnull a)

/-! ## Records -/

/-- The fields of a record are found by their names, in whatever order they come. -/
def Holds (fs : Fields) (ms : List (String × Json)) : Prop :=
  ∀ name, fs.lookup name = (ms.lookup name).map Json.ordered

theorem reads_record (hkeys : (ms.map (·.1)).Nodup) (hwhole : Json.WholeMembers ms)
    (h : ∀ fs, Holds fs ms → read (.obj fs) = x) : Reads read (.obj ms) x := by
  refine ⟨hwhole, h _ fun name => ?_⟩
  rw [Json.lookup_orderedMembers hkeys, List.lookup_nil, Option.or_none]

variable {fs : Fields}

theorem Reads.required (h : Reads read j x) (hname : fs.lookup name = some j.ordered) :
    required read name fs = x := by
  rw [Wire.required, hname]
  exact h.ordered

theorem Reads.defaulted {default : α} (h : Reads read j x)
    (hname : fs.lookup name = some j.ordered) : defaulted read default name fs = x := by
  rw [Wire.defaulted, hname]
  exact h.ordered

theorem Reads.optional {x : Decoded (Option α)} (h : Reads (nullable read) j x)
    (hname : fs.lookup name = some j.ordered) : optional read name fs = x :=
  h.defaulted hname

end Wire

end Circulation
