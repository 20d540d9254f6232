import GraphStore.Json.Basic
import GraphStore.Text.Numeral

/-!
# Reading values out of JSON

A record is written as an object with its fields by name, or as an array with its fields in order.
Unknown names are passed over, and no name may be given twice.
-/

set_option autoImplicit false

namespace GraphStore.Json

open Text

def bool? : Json → Option Bool
  | bool value => some value
  | _ => none

def string? : Json → Option String
  | string text => text.value?
  | _ => none

/-- An integer in the range of 64 bits in two's complement. -/
def int? : Json → Option Int64
  | integer value => int64? value
  | _ => none

/-- A number from 0 up to and without `bound`. -/
def natBelow? (bound : Nat) : Json → Option Nat
  | integer value => if 0 ≤ value then below? bound value.toNat else none
  | _ => none

def recordId? (json : Json) : Option UInt32 := (json.natBelow? 0x100000000).map UInt32.ofNat

def list? {α : Type} (item? : Json → Option α) : Json → Option (List α)
  | array items => items.mapM item?
  | _ => none

/-- A value or `null`. -/
def nullable? {α : Type} (value? : Json → Option α) : Json → Option (Option α)
  | null => some none
  | json => (value? json).map some

/-- The value of a field that may be missing or `null`. -/
def optional? {α : Type} (value? : Json → Option α) : Option Json → Option (Option α)
  | none => some none
  | some json => json.nullable? value?

/-- The only value given under a name. -/
def unique? (name : String) (members : List (String × Json)) : Option (Option Json) :=
  match members.filter (·.1 == name) with
  | [] => some none
  | [member] => some (some member.2)
  | _ => none

/-- The fields of a record with these names, in the order of the names. -/
def fields? (names : List String) : Json → Option (List (Option Json))
  | array items => if items.length = names.length then some (items.map some) else none
  | object members => do
      let named ← members.mapM fun member => member.1.value?.map (·, member.2)
      names.mapM fun name => unique? name named
  | _ => none

/-- One of several names, alone or as the name of a single member without a value. -/
def choice? : Json → Option String
  | string text => text.value?
  | object [(name, .null)] => name.value?
  | _ => none

end GraphStore.Json
