import Circulation.Json.Value
import Circulation.ServicePoint
import Circulation.Zone.Basic

/-!
# Reading values from JSON

A value is written as an object with all its fields. It is read from an object, in which unknown
fields are ignored, or from a list of the fields in order. A field can be required, or optional and
then null or left out, or have a default for which it is left out. Zones are written by their names,
and read with a table of the zones that are known.
-/

namespace Circulation.Wire

/-- Why a JSON value cannot be read. -/
inductive DecodeError where
  /-- The value does not have the form that is wanted. -/
  | malformed
  /-- The value has the form of a period but is not one. -/
  | period (e : Error)
  deriving DecidableEq, Repr

abbrev Decoded := Except DecodeError

def ofOption {α : Type} : Option α → Decoded α
  | some a => .ok a
  | none => .error .malformed

/-! ## Scalars -/

def bool : Json → Decoded Bool
  | .bool b => .ok b
  | _ => .error .malformed

def string : Json → Decoded String
  | .str s => .ok s
  | _ => .error .malformed

/-- An integer between two bounds. -/
def intBetween (least greatest : Int) : Json → Decoded Int
  | .int n => if least ≤ n ∧ n ≤ greatest then .ok n else .error .malformed
  | _ => .error .malformed

/-- An integer of 64 bits with sign. -/
def int (j : Json) : Decoded Int := intBetween (-9223372036854775808) 9223372036854775807 j

/-- An integer of 32 bits without sign. -/
def count (j : Json) : Decoded Nat := do
  let n ← intBetween 0 4294967295 j
  return n.toNat

/-- A value with a written form. -/
def text {α : Type} (ofText? : String → Option α) (j : Json) : Decoded α := do
  let s ← string j
  ofOption (ofText? s)

def date : Json → Decoded Date := text Date.ofText?
def timeOfDay : Json → Decoded TimeOfDay := text TimeOfDay.ofText?
def localTime : Json → Decoded LocalTime := text LocalTime.ofText?
def instant : Json → Decoded Instant := text Instant.ofText?
def zone (zones : Zone.Table) : Json → Decoded Zone := text zones
def identifier : Json → Decoded Identifier := text Identifier.ofText?

/-- One of a set of names, or an object with the name as its only key and null as its value. -/
def tag {α : Type} (ofName? : String → Option α) : Json → Decoded α
  | .str s => ofOption (ofName? s)
  | .obj [(key, .null)] => ofOption (ofName? key)
  | _ => .error .malformed

def list {α : Type} (item : Json → Decoded α) : Json → Decoded (List α)
  | .arr items => items.mapM item
  | _ => .error .malformed

/-- A value or null. -/
def nullable {α : Type} (value : Json → Decoded α) : Json → Decoded (Option α)
  | .null => .ok none
  | j => (value j).map some

/-! ## Fields -/

/-- The fields of a value by name. -/
abbrev Fields := List (String × Json)

/-- The fields of an object, or those of a list in the order of `names`. -/
def fields (names : List String) : Json → Decoded Fields
  | .obj members => .ok members
  | .arr items => if items.length ≤ names.length then .ok (names.zip items) else .error .malformed
  | _ => .error .malformed

def required {α : Type} (value : Json → Decoded α) (name : String) (fs : Fields) : Decoded α :=
  match fs.lookup name with
  | some j => value j
  | none => .error .malformed

def defaulted {α : Type} (value : Json → Decoded α) (default : α) (name : String) (fs : Fields) :
    Decoded α :=
  match fs.lookup name with
  | some j => value j
  | none => .ok default

def optional {α : Type} (value : Json → Decoded α) (name : String) (fs : Fields) :
    Decoded (Option α) :=
  defaulted (nullable value) none name fs

/-! ## Writing -/

def optionJson {α : Type} (toJson : α → Json) : Option α → Json
  | some a => toJson a
  | none => .null

def listJson {α : Type} (toJson : α → Json) (as : List α) : Json := .arr (as.map toJson)

def dateJson (d : Date) : Json := .str d.toText
def timeOfDayJson (t : TimeOfDay) : Json := .str t.toText
def localTimeJson (l : LocalTime) : Json := .str (LocalTime.toText l)
def instantJson (t : Instant) : Json := .str (Instant.toText t)
def zoneJson (z : Zone) : Json := .str z.name
def identifierJson (id : Identifier) : Json := .str id.toText

end Circulation.Wire
