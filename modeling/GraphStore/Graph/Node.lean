import GraphStore.Bytes.Endian
import GraphStore.Graph.Property

/-!
# Nodes
-/

set_option autoImplicit false

namespace GraphStore

/-- A node of the graph. -/
structure Node where
  /-- The number that the store gave to the node, if it is stored. -/
  id : Option RecordId
  name : Option String
  labels : List String
  properties : List Property
  /-- The relationships that begin or end here, the newest first. -/
  relationships : List RecordId
deriving Repr, DecidableEq, Inhabited

/-- A change of a node. -/
structure NodePatch where
  name : Option String
  addLabels : List String
  removeLabels : List String
  setProperties : List Property
  removeProperties : List String
deriving Repr, DecidableEq, Inhabited

namespace Node

def named (name : String) : Node :=
  { id := none, name := some name, labels := [], properties := [], relationships := [] }

def withProperty (node : Node) (property : Property) : Node :=
  { node with properties := Property.merge node.properties [property] [] }

/-- Adds a label at the end unless it is there. -/
def addLabel (labels : List String) (label : String) : List String :=
  if labels.contains label then labels else labels ++ [label]

/-- The node after a change. Removals come before additions; the number and the relationships stay
as they are. -/
def apply (node : Node) (patch : NodePatch) : Node :=
  { node with
    name := patch.name.or node.name
    labels := patch.addLabels.foldl addLabel
      (node.labels.filter fun label => !patch.removeLabels.contains label)
    properties := Property.merge node.properties patch.setProperties patch.removeProperties }

def toJson (node : Node) : Json :=
  .ofMembers
    [("id", .ofOption (fun id => .ofNat id.toNat) node.id),
      ("name", .ofOption .ofString node.name),
      ("labels", .ofList .ofString node.labels),
      ("properties", .ofList Property.toJson node.properties),
      ("relationships", .ofList (fun id => .ofNat id.toNat) node.relationships)]

def ofJson? (json : Json) : Option Node :=
  match json.fields? ["id", "name", "labels", "properties", "relationships"] with
  | some [id, name, some labels, some properties, some relationships] => do
      return {
        id := ← Json.optional? Json.recordId? id
        name := ← Json.optional? Json.string? name
        labels := ← labels.list? Json.string?
        properties := ← properties.list? Property.ofJson?
        relationships := ← relationships.list? Json.recordId? }
  | _ => none

end Node

end GraphStore
