import GraphStore.Json.Fields

/-!
# Properties

Named values of nodes and relationships, in an order that updates keep.
-/

set_option autoImplicit false

namespace GraphStore

/-- The value of a property. -/
inductive PropertyValue where
  | bool (value : Bool)
  | int (value : Int64)
  | text (value : String)
deriving Repr, DecidableEq, Inhabited

/-- A named value. -/
structure Property where
  key : String
  value : PropertyValue
deriving Repr, DecidableEq, Inhabited

namespace Property

/-- Gives a key a value: in its place if the key is there, otherwise at the end. If a key is there
more than once, the first place counts. -/
def set (property : Property) : List Property → List Property
  | [] => [property]
  | first :: rest =>
      if first.key = property.key then { first with value := property.value } :: rest
      else first :: property.set rest

/-- Removes some keys and then sets some properties, one after the other. -/
def merge (base changes : List Property) (removed : List String) : List Property :=
  changes.foldl (fun properties change => change.set properties)
    (base.filter fun property => !removed.contains property.key)

/-- The value of a key, the first one if there are several. -/
def lookup? (properties : List Property) (key : String) : Option PropertyValue :=
  (properties.find? (·.key == key)).map Property.value

end Property

/-!
## Exchange
-/

namespace PropertyValue

def toJson : PropertyValue → Json
  | bool value => .bool value
  | int value => .integer value.toInt
  | text value => .ofString value

/-- A truth value, an integer of 64 bits or a text. -/
def ofJson? : Json → Option PropertyValue
  | .bool value => some (bool value)
  | .integer value => (Text.int64? value).map int
  | .string value => value.value?.map text
  | _ => none

end PropertyValue

namespace Property

def toJson (property : Property) : Json :=
  .ofMembers [("key", .ofString property.key), ("value", property.value.toJson)]

def ofJson? (json : Json) : Option Property :=
  match json.fields? ["key", "value"] with
  | some [some key, some value] => do
      return { key := ← key.string?, value := ← PropertyValue.ofJson? value }
  | _ => none

end Property

end GraphStore
