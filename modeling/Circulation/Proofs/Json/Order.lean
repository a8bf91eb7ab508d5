import Circulation.Json.Value
import Mathlib.Data.String.Basic

/-!
# Objects in order

A reader puts the members of an object in their places by key, and of the members with one key it
keeps the last one. A value whose objects are in order is left as it is, and in any other object the
members are found by their keys as before, if no two have one key.
-/

namespace Circulation.Json

variable {j : Json} {ms done : List (String × Json)} {name key : String}

/-! ## Putting members in order -/

mutual

/-- The value as it is read: the members of objects are put in their places by key. -/
def ordered : Json → Json
  | arr items => arr (orderedItems items)
  | obj members => obj (orderedMembers [] members)
  | j => j

def orderedItems : List Json → List Json
  | [] => []
  | j :: rest => ordered j :: orderedItems rest

/-- The members added to those already in order. -/
def orderedMembers : List (String × Json) → List (String × Json) → List (String × Json)
  | done, [] => done
  | done, (key, j) :: rest => orderedMembers (insertMember key (ordered j) done) rest

end

mutual

/-- The members of every object stand in order of their keys, without repetition. -/
def Sorted : Json → Prop
  | arr items => SortedItems items
  | obj members => members.Pairwise (fun a b => a.1 < b.1) ∧ SortedMembers members
  | _ => True

def SortedItems : List Json → Prop
  | [] => True
  | j :: rest => Sorted j ∧ SortedItems rest

def SortedMembers : List (String × Json) → Prop
  | [] => True
  | (_, j) :: rest => Sorted j ∧ SortedMembers rest

end

/-- A member whose key comes after all others goes to the end. -/
theorem insertMember_of_lt (h : ∀ m ∈ done, m.1 < key) :
    insertMember key j done = done ++ [(key, j)] := by
  induction done with
  | nil => rfl
  | cons m done ih =>
    have hlt : m.1 < key := h m List.mem_cons_self
    rw [insertMember, if_neg hlt.asymm, if_neg hlt.ne', ih fun m hm => h m (.tail _ hm)]
    rfl

mutual

theorem ordered_of_sorted : ∀ {j : Json}, j.Sorted → j.ordered = j
  | null, _ | bool _, _ | int _, _ | decimal _, _ | str _, _ => rfl
  | arr items, h => by rw [ordered, orderedItems_of_sorted h]
  | obj members, h => by rw [ordered, orderedMembers_of_sorted h.1 h.2 (by simp)]; rfl

theorem orderedItems_of_sorted : ∀ {items : List Json}, SortedItems items →
    orderedItems items = items
  | [], _ => rfl
  | j :: rest, h => by rw [orderedItems, ordered_of_sorted h.1, orderedItems_of_sorted h.2]

theorem orderedMembers_of_sorted : ∀ {done ms : List (String × Json)},
    ms.Pairwise (fun a b => a.1 < b.1) → SortedMembers ms →
    (∀ m ∈ done, ∀ m' ∈ ms, m.1 < m'.1) → orderedMembers done ms = done ++ ms
  | done, [], _, _, _ => by rw [orderedMembers, List.append_nil]
  | done, (key, j) :: rest, hkeys, h, hdone => by
    rw [List.pairwise_cons] at hkeys
    have hlast : ∀ m ∈ done, m.1 < key := fun m hm => hdone m hm _ List.mem_cons_self
    have hnext : ∀ m ∈ done ++ [(key, j)], ∀ m' ∈ rest, m.1 < m'.1 := by
      intro m hm m' hm'
      rcases List.mem_append.mp hm with hm | hm
      · exact hdone m hm m' (List.mem_cons_of_mem _ hm')
      · rw [List.mem_singleton.mp hm]
        exact hkeys.1 m' hm'
    rw [orderedMembers, ordered_of_sorted h.1, insertMember_of_lt hlast,
      orderedMembers_of_sorted hkeys.2 h.2 hnext, List.append_assoc]
    rfl

end

/-! ## Members by key -/

theorem lookup_cons :
    ((key, j) :: ms).lookup name = if name = key then some j else ms.lookup name := by
  rw [List.lookup_cons]
  by_cases h : name = key
  · simp only [h, beq_self_eq_true, if_true]
  · simp only [beq_false_of_ne h, if_neg h]

theorem lookup_insertMember :
    (insertMember key j ms).lookup name = if name = key then some j else ms.lookup name := by
  fun_induction insertMember key j ms with
  | case1 => exact lookup_cons
  | case2 => exact lookup_cons
  | case3 v rest hle =>
    rw [lookup_cons, lookup_cons]
    split <;> rfl
  | case4 k v rest hle hne ih =>
    rw [lookup_cons, lookup_cons, ih]
    split
    · rename_i heq
      rw [if_neg fun h => hne (h.symm.trans heq)]
    · rfl

/-- A member is found by its key among those read, if no two of them have one key. -/
theorem lookup_orderedMembers (h : (ms.map (·.1)).Nodup) :
    (orderedMembers done ms).lookup name =
      ((ms.lookup name).map ordered).or (done.lookup name) := by
  induction ms generalizing done with
  | nil => rfl
  | cons m ms ih =>
    obtain ⟨key, j⟩ := m
    rw [List.map_cons, List.nodup_cons] at h
    rw [orderedMembers, ih h.2, lookup_insertMember, lookup_cons]
    split
    · rename_i heq
      have hnone : ms.lookup name = none := List.lookup_eq_none_iff.mpr fun m hm => by
        rw [bne_iff_ne, heq]
        rintro rfl
        exact h.1 (List.mem_map.mpr ⟨m, hm, rfl⟩)
      rw [hnone]
      rfl
    · rfl

end Circulation.Json
