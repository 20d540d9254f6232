import GraphStore.Bytes.Endian
import GraphStore.Graph.Property

/-!
# Relationships
-/

set_option autoImplicit false

namespace GraphStore

/-- A relationship between two nodes. -/
structure Relationship where
  /-- The number that the store gave to the relationship, if it is stored. -/
  id : Option RecordId
  /-- The node at which it starts. -/
  source : RecordId
  /-- The node at which it ends. -/
  target : RecordId
  kind : String
  label : Option String
  properties : List Property
deriving Repr, DecidableEq, Inhabited

/-- A change of a relationship. -/
structure RelationshipPatch where
  kind : Option String
  /-- The label to set, where `some none` takes the label away. -/
  label : Option (Option String)
  setProperties : List Property
  removeProperties : List String
deriving Repr, DecidableEq, Inhabited

namespace Relationship

/-- A relationship that is not stored and has nothing but its ends and its kind. -/
def between (source target : RecordId) (kind : String) : Relationship :=
  { id := none, source, target, kind, label := none, properties := [] }

def withProperty (relationship : Relationship) (property : Property) : Relationship :=
  { relationship with properties := Property.merge relationship.properties [property] [] }

/-- The relationship after a change. Its number and its ends stay as they are. -/
def apply (relationship : Relationship) (patch : RelationshipPatch) : Relationship :=
  { relationship with
    kind := patch.kind.getD relationship.kind
    label := patch.label.getD relationship.label
    properties :=
      Property.merge relationship.properties patch.setProperties patch.removeProperties }

def toJson (relationship : Relationship) : Json :=
  .ofMembers
    [("id", .ofOption (fun id => .ofNat id.toNat) relationship.id),
      ("start", .ofNat relationship.source.toNat),
      ("end", .ofNat relationship.target.toNat),
      ("rel_type", .ofString relationship.kind),
      ("label", .ofOption .ofString relationship.label),
      ("properties", .ofList Property.toJson relationship.properties)]

def ofJson? (json : Json) : Option Relationship :=
  match json.fields? ["id", "start", "end", "rel_type", "label", "properties"] with
  | some [id, some source, some target, some kind, label, some properties] => do
      return {
        id := ← Json.optional? Json.recordId? id
        source := ← source.recordId?
        target := ← target.recordId?
        kind := ← kind.string?
        label := ← Json.optional? Json.string? label
        properties := ← properties.list? Property.ofJson? }
  | _ => none

end Relationship

end GraphStore
