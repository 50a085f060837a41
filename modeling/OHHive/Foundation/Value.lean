import Mathlib.Algebra.Group.Nat.Defs
import Mathlib.Data.Rat.Defs
import OHHive.Foundation.Lines

/-! JSON values as they are held in memory, and the decoding of values by their types: unknown
keys are ignored, an optional key may be missing, and a structure may also be an array. -/

namespace OHHive.Foundation

/-- A value. Integers keep apart from numbers with a fraction. -/
inductive Value where
  | null
  | bool (value : Bool)
  | posInt (value : Nat)
  | negInt (below : Nat)
  | float (value : ℚ)
  | text (value : Text)
  | array (items : List Value)
  | object (members : List (Text × Value))

namespace Value

section Reading

def member? (value : Value) (key : String) : Option Value :=
  match value with
  | .object members => members.lookup key.toList
  | _ => none

/-- `value[key]`: null where there is no such member. -/
def get (value : Value) (key : String) : Value := (value.member? key).getD .null

def asArray : Value → Option (List Value)
  | .array items => some items
  | _ => none

def asObject : Value → Option (List (Text × Value))
  | .object members => some members
  | _ => none

def asBool : Value → Option Bool
  | .bool value => some value
  | _ => none

def asText : Value → Option Text
  | .text value => some value
  | _ => none

/-- An unsigned integer of so many bits. -/
def asNat (bits : Nat) : Value → Option Nat
  | .posInt value => if value < 2 ^ bits then some value else none
  | _ => none

def isNumber : Value → Bool
  | .posInt _ | .negInt _ | .float _ => true
  | _ => false

def mapItems (change : List Value → List Value) : Value → Value
  | .array items => .array (change items)
  | value => value

/-- Changes a member of an object. -/
def mapMember (value : Value) (key : String) (change : Value → Value) : Value :=
  match value with
  | .object members =>
    .object (members.map fun (name, found) =>
      (name, if name = key.toList then change found else found))
  | _ => value

end Reading

section Decoding

variable {α : Type}

abbrev Decoder (α : Type) := Value → Option α

def option (decode : Decoder α) : Decoder (Option α)
  | .null => some none
  | value => (decode value).map some

def list (decode : Decoder α) : Decoder (List α)
  | .array items => items.mapM decode
  | _ => none

/-- A variant by its name, or as the only key of an object, over null. -/
def variant (named : List (Text × α)) : Decoder α
  | .text name => named.lookup name
  | .object [(name, .null)] => named.lookup name
  | _ => none

/-- An object, or an array of no more items than there are fields. -/
def isStruct (fields : Nat) : Value → Bool
  | .object _ => true
  | .array items => items.length ≤ fields
  | _ => false

/-- A field by its name, or by its place in an array. -/
def field? (value : Value) (place : Nat) (name : String) : Option Value :=
  match value with
  | .array items => items[place]?
  | _ => value.member? name

def required (value : Value) (place : Nat) (name : String) (decode : Decoder α) : Option α :=
  (value.field? place name).bind decode

/-- A field that may be missing from an object, but not from an array. -/
def optional (value : Value) (place : Nat) (name : String) (decode : Decoder α) :
    Option (Option α) :=
  match value.field? place name, value with
  | some found, _ => option decode found
  | none, .object _ => some none
  | none, _ => none

/-- A field with a default. -/
def defaulted (value : Value) (place : Nat) (name : String) (default : α) (decode : Decoder α) :
    Option α :=
  match value.field? place name with
  | some found => decode found
  | none => some default

end Decoding

section Members

variable {members : List (Text × Value)} {value : Value} {key other : String}
  {change : Value → Value}

theorem lookup_mapMember (name : Text) :
    (members.map fun (found, held) =>
      (found, if found = key.toList then change held else held)).lookup name =
      (members.lookup name).map fun held => if name = key.toList then change held else held := by
  induction members with
  | nil => rfl
  | cons first rest ih =>
    obtain ⟨found, held⟩ := first
    by_cases same : name = found
    · subst same
      simp
    · simp [List.lookup_cons, beq_false_of_ne same, ih]

/-- Another member stays. -/
theorem get_mapMember_of_ne (apart : other.toList ≠ key.toList) :
    (value.mapMember key change).get other = value.get other := by
  cases value with
  | object members =>
    simp only [get, member?, mapMember, lookup_mapMember, if_neg apart, Option.map_id']
  | _ => rfl

/-- The items of a member that is an array are changed. -/
theorem asArray_get_mapMember (changeItems : List Value → List Value) :
    ((value.mapMember key (mapItems changeItems)).get key).asArray =
      (value.get key).asArray.map changeItems := by
  cases value with
  | object members =>
    simp only [get, member?, mapMember, lookup_mapMember]
    cases members.lookup key.toList with
    | none => rfl
    | some held => cases held <;> rfl
  | _ => rfl

end Members

end Value

end OHHive.Foundation
