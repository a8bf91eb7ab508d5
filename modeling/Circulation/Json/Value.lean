import Circulation.Json.Decimal

/-!
# JSON values

The members of an object that was read are in order of their keys, without repetition, so that
equal objects are equal lists.
-/

namespace Circulation

inductive Json where
  | null
  | bool (b : Bool)
  | int (n : Int)
  | decimal (d : Json.Decimal)
  | str (s : String)
  | arr (items : List Json)
  | obj (members : List (String × Json))
  deriving Repr

namespace Json

mutual

/-- Structural equality. -/
def beq : Json → Json → Bool
  | null, null => true
  | bool a, bool b => a == b
  | int a, int b => a == b
  | decimal a, decimal b => a == b
  | str a, str b => a == b
  | arr a, arr b => beqItems a b
  | obj a, obj b => beqMembers a b
  | _, _ => false

def beqItems : List Json → List Json → Bool
  | [], [] => true
  | a :: as, b :: bs => beq a b && beqItems as bs
  | _, _ => false

def beqMembers : List (String × Json) → List (String × Json) → Bool
  | [], [] => true
  | (k, a) :: as, (l, b) :: bs => k == l && beq a b && beqMembers as bs
  | _, _ => false

end

instance : BEq Json := ⟨beq⟩

mutual

theorem eq_of_beq : ∀ {a b : Json}, beq a b = true → a = b
  | null, b, h => by cases b <;> simp_all [beq]
  | bool _, b, h => by cases b <;> simp_all [beq]
  | int _, b, h => by cases b <;> simp_all [beq]
  | decimal _, b, h => by cases b <;> simp_all [beq]
  | str _, b, h => by cases b <;> simp_all [beq]
  | arr as, b, h => by
    cases b with
    | arr bs => exact congrArg arr (eq_of_beqItems (by simpa [beq] using h))
    | _ => simp [beq] at h
  | obj as, b, h => by
    cases b with
    | obj bs => exact congrArg obj (eq_of_beqMembers (by simpa [beq] using h))
    | _ => simp [beq] at h

theorem eq_of_beqItems : ∀ {as bs : List Json}, beqItems as bs = true → as = bs
  | [], [], _ => rfl
  | [], _ :: _, h => by simp [beqItems] at h
  | _ :: _, [], h => by simp [beqItems] at h
  | a :: as, b :: bs, h => by
    simp only [beqItems, Bool.and_eq_true] at h
    rw [eq_of_beq h.1, eq_of_beqItems h.2]

theorem eq_of_beqMembers : ∀ {as bs : List (String × Json)}, beqMembers as bs = true → as = bs
  | [], [], _ => rfl
  | [], _ :: _, h => by simp [beqMembers] at h
  | _ :: _, [], h => by simp [beqMembers] at h
  | (k, a) :: as, (l, b) :: bs, h => by
    simp only [beqMembers, Bool.and_eq_true, beq_iff_eq] at h
    rw [h.1.1, eq_of_beq h.1.2, eq_of_beqMembers h.2]

end

/-- The value of a key, if the value is an object that has it. -/
def get? (j : Json) (key : String) : Option Json :=
  match j with
  | obj members => members.lookup key
  | _ => none

/-- Puts a member into its place by key, where it replaces the member of the same key. -/
def insertMember (key : String) (value : Json) : List (String × Json) → List (String × Json)
  | [] => [(key, value)]
  | (k, v) :: rest =>
    if key < k then (key, value) :: (k, v) :: rest
    else if key = k then (key, value) :: rest
    else (k, v) :: insertMember key value rest

end Json

end Circulation
