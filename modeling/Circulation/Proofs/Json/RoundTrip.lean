import Circulation.Json.Reader
import Circulation.Json.Writer
import Circulation.Proofs.Json.Order
import Circulation.Proofs.Text.Digits

/-!
# Reading JSON back

A value that is written and read again is the same, with its objects in order, unless it is deeper
than the reader goes. Its numbers have to be integers of 64 bits, since a reader takes no others for
integers. The induction is on the value and carries its length, which is fuel enough for the reader,
the levels left to the reader, and what follows the value in the text, which must not be taken for a
part of a number.
-/

namespace Circulation.Json

open Text

variable {fuel levels : Nat} {c : Char} {cs rest : List Char} {j : Json}
  {ms done : List (String × Json)}
  {key : String}

/-! ## Strings -/

theorem hexValue?_hexChar {n : Nat} (h : n < 16) : hexValue? (hexChar n) = some n := by
  revert n
  decide

/-- The escape of a control character is read back. -/
theorem escapedUnit?_control (h : c.toNat < 32) :
    escapedUnit? ('0' :: '0' :: hexChar (c.toNat / 16) :: hexChar (c.toNat % 16) :: rest) =
      some (c, rest) := by
  have hzero : hexValue? '0' = some 0 := rfl
  have hvalue : 4096 * 0 + 256 * 0 + 16 * (c.toNat / 16) + c.toNat % 16 = c.toNat := by omega
  simp only [escapedUnit?, unit?, hzero, hexValue?_hexChar (show c.toNat / 16 < 16 by omega),
    hexValue?_hexChar (show c.toNat % 16 < 16 by omega), Option.bind_eq_bind, Option.bind_some,
    hvalue]
  rw [if_neg (by omega), if_neg (by omega), Char.ofNat_toNat]

theorem stringRest?_escaped (h : escaped? cs = some (c, rest)) :
    stringRest? (fuel + 1) ('\\' :: cs) =
      (stringRest? fuel rest).map fun (s, rest) => (c :: s, rest) := by
  rw [stringRest?, if_neg (by decide), if_pos rfl]
  simp only [h, Option.bind_eq_bind, Option.bind_some]
  cases stringRest? fuel rest <;> rfl

theorem stringRest?_plain (hquote : c ≠ '"') (hslash : c ≠ '\\') (h : ¬ c.toNat < 32) :
    stringRest? (fuel + 1) (c :: rest) =
      (stringRest? fuel rest).map fun (s, rest) => (c :: s, rest) := by
  rw [stringRest?, if_neg hquote, if_neg hslash, if_neg h]
  cases stringRest? fuel rest <;> rfl

/-- The characters that stand for one are read as that one. -/
theorem stringRest?_escape (c : Char) :
    stringRest? (fuel + 1) (escape c ++ rest) =
      (stringRest? fuel rest).map fun (s, rest) => (c :: s, rest) := by
  unfold escape
  split_ifs with hquote hslash hb hf hn hr ht hcontrol
  · rw [hquote]; exact stringRest?_escaped rfl
  · rw [hslash]; exact stringRest?_escaped rfl
  · rw [hb]; exact stringRest?_escaped rfl
  · rw [hf]; exact stringRest?_escaped rfl
  · rw [hn]; exact stringRest?_escaped rfl
  · rw [hr]; exact stringRest?_escaped rfl
  · rw [ht]; exact stringRest?_escaped rfl
  · exact stringRest?_escaped (escapedUnit?_control hcontrol)
  · exact stringRest?_plain hquote hslash hcontrol

theorem length_escape_pos (c : Char) : 0 < (escape c).length := by
  unfold escape
  split_ifs <;> exact Nat.succ_pos _

theorem stringRest?_append (h : (cs.flatMap escape).length < fuel) :
    stringRest? fuel (cs.flatMap escape ++ '"' :: rest) = some (cs, rest) := by
  induction cs generalizing fuel with
  | nil =>
    obtain ⟨fuel, rfl⟩ := Nat.exists_eq_succ_of_ne_zero (Nat.ne_of_gt h)
    rfl
  | cons c cs ih =>
    obtain ⟨fuel, rfl⟩ := Nat.exists_eq_succ_of_ne_zero (Nat.ne_of_gt (Nat.zero_lt_of_lt h))
    have hc := length_escape_pos c
    rw [List.flatMap_cons, List.length_append] at h
    rw [List.flatMap_cons, List.append_assoc, stringRest?_escape, ih (by omega)]
    rfl

theorem stringChars_append (s : String) (rest : List Char) :
    stringChars s ++ rest = '"' :: (s.toList.flatMap escape ++ '"' :: rest) := by
  simp [stringChars]

/-- A string is read back after its opening quote. -/
theorem string?_append {s : String} (h : (stringChars s).length ≤ fuel + 1) :
    string? fuel (s.toList.flatMap escape ++ '"' :: rest) = some (s, rest) := by
  simp only [stringChars, List.length_append, List.length_cons, List.length_nil] at h
  rw [string?, stringRest?_append (by omega)]
  exact congrArg (fun s => some (s, rest)) String.ofList_toList

/-! ## Numbers -/

/-- What follows is no part of a number. -/
def EndsNumber (rest : List Char) : Prop :=
  ∀ c ∈ rest.head?, c.isDigit = false ∧ c ≠ '.' ∧ c ≠ 'e' ∧ c ≠ 'E'

theorem EndsNumber.noDigit (h : EndsNumber rest) : NoDigit rest := fun c hc => (h c hc).1

theorem digits?_append {ds : List Char} {n : Nat} (h : IsNumeral ds n) (hrest : NoDigit rest) :
    digits? (ds ++ rest) = some (ds, rest) := by
  have hstop : rest.takeWhile Char.isDigit = [] ∧ rest.dropWhile Char.isDigit = rest := by
    cases rest with
    | nil => exact ⟨rfl, rfl⟩
    | cons c rest => simp [List.takeWhile, List.dropWhile, hrest c rfl]
  rw [digits?, List.takeWhile_append_of_pos h.isDigit, List.dropWhile_append_of_pos h.isDigit,
    hstop.1, hstop.2, List.append_nil]
  obtain ⟨c, cs, rfl, -⟩ := h.exists_cons
  rfl

theorem whole?_append (n : Nat) (hrest : NoDigit rest) :
    whole? (Text.decimal n ++ rest) = some (Text.decimal n, rest) := by
  rw [whole?, digits?_append (isNumeral_decimal n) hrest]
  split
  · rename_i heq
    have hcons := congrArg Prod.fst (Option.some.inj heq)
    rcases Nat.eq_zero_or_pos n with rfl | hpos
    · rw [Text.decimal, if_pos (by decide)] at hcons
      cases hcons
    · exact absurd hcons (decimal_ne_zero_cons hpos _)
  · rfl

theorem fraction?_of_endsNumber (h : EndsNumber rest) : fraction? rest = some (none, rest) := by
  unfold fraction?
  split
  · exact absurd rfl (h _ rfl).2.1
  · rfl

theorem exponent?_of_endsNumber (h : EndsNumber rest) : exponent? rest = some (none, rest) := by
  cases rest with
  | nil => rfl
  | cons c rest =>
    have hc := (h c rfl).2.2
    exact if_neg (not_or.mpr hc)

theorem numeral?_append (n : Int) (hrest : EndsNumber rest) :
    numeral? (ofInt n ++ rest) = some (⟨n < 0, Text.decimal n.natAbs, none, none⟩, rest) := by
  have hwhole := whole?_append n.natAbs hrest.noDigit
  unfold ofInt
  split
  case isTrue hneg =>
    have hhead : ('-' :: (Text.decimal n.natAbs ++ rest)).head? = some '-' := rfl
    simp only [List.cons_append, numeral?, hhead, if_true, List.tail_cons, hwhole,
      Option.bind_eq_bind, Option.bind_some, fraction?_of_endsNumber hrest,
      exponent?_of_endsNumber hrest, hneg]
  case isFalse hneg =>
    obtain ⟨c, cs, hcons, hc⟩ := (isNumeral_decimal n.natAbs).exists_cons
    have hhead : (Text.decimal n.natAbs ++ rest).head? ≠ some '-' := by
      rw [hcons]
      rintro ⟨⟩
      exact absurd hc (by decide)
    simp only [numeral?, hhead, if_false, hwhole, Option.bind_eq_bind, Option.bind_some,
      fraction?_of_endsNumber hrest, exponent?_of_endsNumber hrest, hneg]

/-- The integers that are read as such. -/
def IsWord (n : Int) : Prop := -9223372036854775808 ≤ n ∧ n ≤ 18446744073709551615

theorem value?_numeral {n : Int} (h : IsWord n) :
    Numeral.value? ⟨n < 0, Text.decimal n.natAbs, none, none⟩ = some (int n) := by
  have hsize : UInt64.size = 18446744073709551616 := rfl
  have hpow : Nat.pow 2 63 = 9223372036854775808 := rfl
  have hint : Numeral.int? ⟨n < 0, Text.decimal n.natAbs, none, none⟩ = some n := by
    simp only [Numeral.int?, digitsValue_decimal, Option.isSome_none, Bool.false_eq_true, or_false,
      if_false, decide_eq_true_eq, hsize, hpow]
    obtain ⟨hleast, hgreatest⟩ := h
    split
    · rw [if_pos (by omega)]
      congr 1
      omega
    · rw [if_pos (by omega)]
      congr 1
      omega
  rw [Numeral.value?, hint]

/-! ## Values -/

mutual

/-- The integers in the value are ones that are read as such, and there are other numbers in it only
if `decimals`. -/
def Numbers (decimals : Prop) : Json → Prop
  | int n => IsWord n
  | decimal _ => decimals
  | arr items => NumbersItems decimals items
  | obj members => NumbersMembers decimals members
  | _ => True

def NumbersItems (decimals : Prop) : List Json → Prop
  | [] => True
  | j :: rest => Numbers decimals j ∧ NumbersItems decimals rest

def NumbersMembers (decimals : Prop) : List (String × Json) → Prop
  | [] => True
  | (_, j) :: rest => Numbers decimals j ∧ NumbersMembers decimals rest

end

/-- All numbers in the value are integers that are read as such. -/
abbrev Whole : Json → Prop := Numbers False

abbrev WholeItems : List Json → Prop := NumbersItems False

abbrev WholeMembers : List (String × Json) → Prop := NumbersMembers False

mutual

/-- How many lists and objects stand inside each other. -/
def depth : Json → Nat
  | arr items => depthItems items + 1
  | obj members => depthMembers members + 1
  | _ => 0

def depthItems : List Json → Nat
  | [] => 0
  | j :: rest => max (depth j) (depthItems rest)

def depthMembers : List (String × Json) → Nat
  | [] => 0
  | (_, j) :: rest => max (depth j) (depthMembers rest)

end

theorem depthItems_le_iff {items : List Json} {n : Nat} :
    depthItems items ≤ n ↔ ∀ j ∈ items, j.depth ≤ n := by
  induction items with
  | nil => simp [depthItems]
  | cons j items ih => rw [depthItems, Nat.max_le, ih, List.forall_mem_cons]

theorem depthMembers_le_iff {n : Nat} : depthMembers ms ≤ n ↔ ∀ m ∈ ms, m.2.depth ≤ n := by
  induction ms with
  | nil => simp [depthMembers]
  | cons m ms ih => rw [depthMembers, Nat.max_le, ih, List.forall_mem_cons]

theorem depth_arr_le_iff {items : List Json} {n : Nat} :
    (arr items).depth ≤ n + 1 ↔ ∀ j ∈ items, j.depth ≤ n := by
  rw [depth, Nat.add_le_add_iff_right, depthItems_le_iff]

theorem depth_obj_le_iff {n : Nat} : (obj ms).depth ≤ n + 1 ↔ ∀ m ∈ ms, m.2.depth ≤ n := by
  rw [depth, Nat.add_le_add_iff_right, depthMembers_le_iff]

theorem skipSpace_cons (h : isSpace c = false) : skipSpace (c :: rest) = c :: rest :=
  List.dropWhile_cons_of_neg (by simp [h])

theorem isSpace_of_isDigit (h : c.isDigit = true) : isSpace c = false := by
  simp only [isSpace, Bool.or_eq_false_iff, decide_eq_false_iff_not]
  refine ⟨⟨⟨?_, ?_⟩, ?_⟩, ?_⟩ <;> (rintro rfl; exact absurd h (by decide))

/-- The first character of an integer is its sign or a digit. -/
theorem exists_ofInt_cons (n : Int) :
    ∃ c cs, ofInt n = c :: cs ∧ (c = '-' ∨ c.isDigit = true) := by
  unfold ofInt
  split
  · exact ⟨'-', _, rfl, .inl rfl⟩
  · obtain ⟨c, cs, hcons, hc⟩ := (isNumeral_decimal n.natAbs).exists_cons
    exact ⟨c, cs, hcons, .inr hc⟩

/-- A value begins neither with a blank nor with the end of a list. -/
theorem exists_chars_cons (h : j.Whole) :
    ∃ c cs, chars j = c :: cs ∧ isSpace c = false ∧ c ≠ ']' := by
  cases j with
  | null => exact ⟨'n', _, rfl, rfl, by decide⟩
  | bool b => cases b <;> exact ⟨_, _, rfl, rfl, by decide⟩
  | int n =>
    obtain ⟨c, cs, hcons, rfl | hc⟩ := exists_ofInt_cons n
    · exact ⟨'-', cs, hcons, rfl, by decide⟩
    · refine ⟨c, cs, hcons, isSpace_of_isDigit hc, ?_⟩
      rintro rfl
      exact absurd hc (by decide)
  | decimal d => exact h.elim
  | str s => exact ⟨'"', _, rfl, rfl, by decide⟩
  | arr items => exact ⟨'[', _, rfl, rfl, by decide⟩
  | obj members => exact ⟨'\x7b', _, rfl, rfl, by decide⟩

theorem value?_int {n : Int} (h : IsWord n) (hrest : EndsNumber rest) :
    value? (fuel + 1) levels (ofInt n ++ rest) = some (int n, rest) := by
  obtain ⟨c, cs, hcons, hc⟩ := exists_ofInt_cons n
  have hspace : isSpace c = false := by
    rcases hc with rfl | hc
    · rfl
    · exact isSpace_of_isDigit hc
  have hnumeral := numeral?_append n hrest
  rw [hcons, List.cons_append] at hnumeral ⊢
  rw [value?, skipSpace_cons hspace]
  -- Neither a digit nor a sign begins a value of another kind.
  split
  case h_7 => simp only [hnumeral, Option.bind_eq_bind, Option.bind_some, value?_numeral h]
  all_goals
    rename_i heq
    obtain ⟨rfl, -⟩ := List.cons.inj heq
    exact absurd hc (by decide)

theorem items?_cons (h : value? fuel levels cs = some (j, ',' :: rest)) :
    items? (fuel + 1) levels cs =
      (items? fuel levels rest).map fun (items, rest) => (j :: items, rest) := by
  simp only [items?, h, Option.bind_eq_bind, Option.bind_some, skipSpace_cons (c := ',') rfl]
  cases items? fuel levels rest <;> rfl

theorem items?_last (h : value? fuel levels cs = some (j, ']' :: rest)) :
    items? (fuel + 1) levels cs = some ([j], rest) := by
  simp only [items?, h, Option.bind_eq_bind, Option.bind_some, skipSpace_cons (c := ']') rfl]

theorem items?_none (h : value? fuel levels cs = none) : items? (fuel + 1) levels cs = none := by
  simp only [items?, h, Option.bind_eq_bind, Option.bind_none]

theorem value?_arr (hspace : isSpace c = false) (hc : c ≠ ']') :
    value? (fuel + 1) (levels + 1) ('[' :: c :: cs) =
      (items? fuel levels (c :: cs)).map fun (items, rest) => (arr items, rest) := by
  rw [value?, skipSpace_cons rfl]
  simp only [skipSpace_cons hspace, Nat.add_one_sub_one, if_neg (Nat.succ_ne_zero levels)]
  split
  · rename_i heq
    exact absurd (List.cons.inj heq).1 hc
  · rfl

theorem value?_obj : value? (fuel + 1) (levels + 1) ('\x7b' :: '"' :: cs) =
    (members? fuel levels [] ('"' :: cs)).map fun (ms, rest) => (obj ms, rest) := by
  rw [value?, skipSpace_cons rfl]
  simp only [skipSpace_cons (c := '"') rfl, Nat.add_one_sub_one, if_neg (Nat.succ_ne_zero levels)]
  split
  · rename_i heq
    exact absurd (List.cons.inj heq).1 (by decide)
  · rfl

/-- No list and no object begins on the last level. -/
theorem value?_zero (h : c = '[' ∨ c = '\x7b') : value? (fuel + 1) 0 (c :: cs) = none := by
  rcases h with rfl | rfl <;> rfl

theorem members?_cons (hkey : (stringChars key).length ≤ fuel + 1)
    (h : value? fuel levels cs = some (j, ',' :: rest)) :
    members? (fuel + 1) levels done (stringChars key ++ ':' :: cs) =
      members? fuel levels (insertMember key j done) rest := by
  rw [stringChars_append, members?, skipSpace_cons rfl]
  simp only [string?_append hkey, Option.bind_eq_bind, Option.bind_some,
    skipSpace_cons (c := ':') rfl, h, skipSpace_cons (c := ',') rfl]

theorem members?_last (hkey : (stringChars key).length ≤ fuel + 1)
    (h : value? fuel levels cs = some (j, '\x7d' :: rest)) :
    members? (fuel + 1) levels done (stringChars key ++ ':' :: cs) =
      some (insertMember key j done, rest) := by
  rw [stringChars_append, members?, skipSpace_cons rfl]
  simp only [string?_append hkey, Option.bind_eq_bind, Option.bind_some,
    skipSpace_cons (c := ':') rfl, h, skipSpace_cons (c := '\x7d') rfl]

theorem members?_none (hkey : (stringChars key).length ≤ fuel + 1)
    (h : value? fuel levels cs = none) :
    members? (fuel + 1) levels done (stringChars key ++ ':' :: cs) = none := by
  rw [stringChars_append, members?, skipSpace_cons rfl]
  simp only [string?_append hkey, Option.bind_eq_bind, Option.bind_some,
    skipSpace_cons (c := ':') rfl, h, Option.bind_none]

theorem endsNumber_cons (h : c = ',' ∨ c = ']' ∨ c = '\x7d') (rest : List Char) :
    EndsNumber (c :: rest) := by
  rintro c' ⟨⟩
  rcases h with rfl | rfl | rfl <;> decide

/-- A list that is not empty begins as its first item does. -/
theorem exists_itemsChars_cons (h : j.Whole) (items : List Json) :
    ∃ c cs, itemsChars (j :: items) = c :: cs ∧ isSpace c = false ∧ c ≠ ']' := by
  obtain ⟨c, cs, hcons, hc⟩ := exists_chars_cons h
  cases items with
  | nil => exact ⟨c, _, by rw [itemsChars, hcons, List.cons_append], hc⟩
  | cons k items => exact ⟨c, _, by rw [itemsChars, hcons, List.cons_append], hc⟩

/-- An object that is not empty begins with the quote of its first key. -/
theorem exists_membersChars_cons (m : String × Json) (ms : List (String × Json)) :
    ∃ cs, membersChars (m :: ms) = '"' :: cs := by
  obtain ⟨key, j⟩ := m
  cases ms with
  | nil => exact ⟨_, by rw [membersChars, List.append_assoc, stringChars_append]⟩
  | cons m ms => exact ⟨_, by rw [membersChars, List.append_assoc, stringChars_append]⟩

mutual

theorem value?_append : ∀ {j : Json} {fuel levels : Nat} {rest : List Char}, j.Whole →
    (chars j).length ≤ fuel → EndsNumber rest →
    value? fuel levels (chars j ++ rest) =
      if j.depth ≤ levels then some (j.ordered, rest) else none
  | null, fuel + 1, levels, _, _, _, _ => (if_pos (Nat.zero_le levels)).symm
  | bool true, fuel + 1, levels, _, _, _, _ => (if_pos (Nat.zero_le levels)).symm
  | bool false, fuel + 1, levels, _, _, _, _ => (if_pos (Nat.zero_le levels)).symm
  | int n, 0, _, _, _, hfuel, _ => by
    obtain ⟨c, cs, hcons, -⟩ := exists_ofInt_cons n
    rw [chars, hcons] at hfuel
    exact absurd hfuel (Nat.not_succ_le_zero _)
  | int n, fuel + 1, levels, _, h, _, hrest =>
    (value?_int h hrest).trans (if_pos (Nat.zero_le levels)).symm
  | str s, fuel + 1, levels, rest, _, hfuel, _ => by
    rw [chars, stringChars_append, value?, skipSpace_cons rfl]
    simp only [string?_append hfuel, Option.map_some]
    exact (if_pos (Nat.zero_le levels)).symm
  | arr _, fuel + 1, 0, _, _, _, _ => value?_zero (.inl rfl)
  | obj _, fuel + 1, 0, _, _, _, _ => value?_zero (.inr rfl)
  | arr [], fuel + 1, levels + 1, _, _, _, _ => (if_pos (Nat.succ_pos levels)).symm
  | arr (j :: items), fuel + 1, levels + 1, rest, h, hfuel, _ => by
    obtain ⟨c, cs, hcons, hspace, hc⟩ := exists_itemsChars_cons h.1 items
    have hitems : items? fuel levels (itemsChars (j :: items) ++ rest) = _ :=
      items?_append (List.cons_ne_nil j items) h (Nat.le_of_succ_le_succ hfuel)
    rw [hcons] at hitems
    rw [chars, hcons, List.cons_append, List.cons_append, value?_arr hspace hc,
      ← List.cons_append, hitems]
    simp only [depth, Nat.add_le_add_iff_right]
    split <;> rfl
  | obj [], fuel + 1, levels + 1, _, _, _, _ => (if_pos (Nat.succ_pos levels)).symm
  | obj (m :: members), fuel + 1, levels + 1, rest, h, hfuel, _ => by
    obtain ⟨cs, hcons⟩ := exists_membersChars_cons m members
    have hmembers : members? fuel levels [] (membersChars (m :: members) ++ rest) = _ :=
      members?_append (List.cons_ne_nil m members) h (Nat.le_of_succ_le_succ hfuel)
    rw [hcons] at hmembers
    rw [chars, hcons, List.cons_append, List.cons_append, value?_obj, ← List.cons_append,
      hmembers]
    simp only [depth, Nat.add_le_add_iff_right]
    split <;> rfl

theorem items?_append : ∀ {items : List Json} {fuel levels : Nat} {rest : List Char}, items ≠ [] →
    WholeItems items → (itemsChars items).length ≤ fuel →
    items? fuel levels (itemsChars items ++ rest) =
      if depthItems items ≤ levels then some (orderedItems items, rest) else none
  | [], _, _, _, hne, _, _ => absurd rfl hne
  | [j], 0, _, _, _, _, hfuel => by
    simp [itemsChars] at hfuel
  | [j], fuel + 1, levels, rest, _, h, hfuel => by
    rw [itemsChars, List.length_append] at hfuel
    have hvalue : value? fuel levels (chars j ++ ']' :: rest) = _ :=
      value?_append h.1 (Nat.le_of_succ_le_succ hfuel) (endsNumber_cons (.inr (.inl rfl)) rest)
    rw [itemsChars, List.append_assoc, depthItems, depthItems, Nat.max_zero]
    split at hvalue
    · exact (items?_last hvalue).trans (if_pos ‹_›).symm
    · exact (items?_none hvalue).trans (if_neg ‹_›).symm
  | j :: k :: items, 0, _, _, _, _, hfuel => by
    simp [itemsChars] at hfuel
  | j :: k :: items, fuel + 1, levels, rest, _, h, hfuel => by
    rw [itemsChars, List.length_append, List.length_cons] at hfuel
    have hvalue : value? fuel levels (chars j ++ ',' :: (itemsChars (k :: items) ++ rest)) = _ :=
      value?_append h.1 (by omega) (endsNumber_cons (.inl rfl) _)
    have hitems : items? fuel levels (itemsChars (k :: items) ++ rest) = _ :=
      items?_append (List.cons_ne_nil k items) h.2 (by omega)
    rw [itemsChars, List.append_assoc, List.cons_append, depthItems]
    split at hvalue
    · rename_i hj
      rw [items?_cons hvalue, hitems]
      simp only [Nat.max_le, hj, true_and]
      split <;> rfl
    · rename_i hj
      rw [items?_none hvalue, if_neg fun hle => hj (Nat.max_le.mp hle).1]

theorem members?_append : ∀ {ms done : List (String × Json)} {fuel levels : Nat}
    {rest : List Char}, ms ≠ [] → WholeMembers ms → (membersChars ms).length ≤ fuel →
    members? fuel levels done (membersChars ms ++ rest) =
      if depthMembers ms ≤ levels then some (orderedMembers done ms, rest) else none
  | [], _, _, _, _, hne, _, _ => absurd rfl hne
  | [(key, j)], _, 0, _, _, _, _, hfuel => by
    simp [membersChars] at hfuel
  | [(key, j)], done, fuel + 1, levels, rest, _, h, hfuel => by
    simp only [membersChars, List.length_append, List.length_cons] at hfuel
    have hvalue : value? fuel levels (chars j ++ '\x7d' :: rest) = _ :=
      value?_append h.1 (by omega) (endsNumber_cons (.inr (.inr rfl)) rest)
    have hkey : (stringChars key).length ≤ fuel + 1 := by omega
    rw [membersChars, List.append_assoc, List.append_assoc, List.cons_append, depthMembers,
      depthMembers, Nat.max_zero]
    split at hvalue
    · exact (members?_last hkey hvalue).trans (if_pos ‹_›).symm
    · exact (members?_none hkey hvalue).trans (if_neg ‹_›).symm
  | (key, j) :: m :: ms, _, 0, _, _, _, _, hfuel => by
    simp [membersChars] at hfuel
  | (key, j) :: m :: ms, done, fuel + 1, levels, rest, _, h, hfuel => by
    simp only [membersChars, List.length_append, List.length_cons] at hfuel
    have hvalue : value? fuel levels (chars j ++ ',' :: (membersChars (m :: ms) ++ rest)) = _ :=
      value?_append h.1 (by omega) (endsNumber_cons (.inl rfl) _)
    have hmembers : members? fuel levels (insertMember key j.ordered done)
        (membersChars (m :: ms) ++ rest) = _ :=
      members?_append (List.cons_ne_nil m ms) h.2 (by omega)
    have hkey : (stringChars key).length ≤ fuel + 1 := by omega
    rw [membersChars, List.append_assoc, List.append_assoc, List.cons_append, List.cons_append,
      depthMembers]
    split at hvalue
    · rename_i hj
      rw [members?_cons hkey hvalue, hmembers]
      simp only [Nat.max_le, hj, true_and]
      rfl
    · rename_i hj
      rw [members?_none hkey hvalue, if_neg fun hle => hj (Nat.max_le.mp hle).1]

end

/-- A value is read back from its text with its objects in order, unless it is too deep. -/
theorem ofText?_toText (h : j.Whole) :
    ofText? j.toText = if j.depth ≤ maxDepth then some j.ordered else none := by
  have hends : EndsNumber [] := nofun
  have hvalue : value? (2 * (chars j).length + 2) maxDepth (chars j ++ []) = _ :=
    value?_append h (by omega) hends
  rw [List.append_nil] at hvalue
  simp only [ofText?, toText, String.toList_ofList, hvalue, Option.bind_eq_bind]
  split <;> rfl

end Circulation.Json
