import GraphStore.Collection.Properties
import GraphStore.Engine.Basic
import GraphStore.Graph.Node

/-!
# Storing nodes

A node is checked as a whole before anything is written. Labels, keys, texts and properties are
written before the record of the node that points at them.
-/

set_option autoImplicit false

namespace GraphStore

namespace Engine

/-- The key under which the name of a node is stored. Keys that begin with its first character are
kept for the engine. -/
def nameKey : String := "@name"

/-- Refuses keys that are kept for the engine. -/
def checkKeys (properties : List Property) : Except Error Unit :=
  match properties.find? (·.key.toList.head? == some '@') with
  | some property => .error (.valueOutOfRange s!"property name '{property.key}' is reserved")
  | none => .ok ()

/-- The properties under which a node is stored: its name first, then its own. -/
def storedProperties (node : Node) : List Property :=
  (node.name.map fun name => ⟨nameKey, .text name⟩).toList ++ node.properties

def isName (property : Property) : Bool :=
  match property.value with
  | .text _ => property.key == nameKey
  | _ => false

/-- The name among stored properties. The last one counts. -/
def nameOf? (properties : List Property) : Option String :=
  (properties.filter isName).getLast?.bind fun property =>
    match property.value with
    | .text name => some name
    | _ => none

end Engine

namespace Collection

/-- The record of a node's labels, if it has any. -/
def labelRecord? (labels : List String) : Except Error (Option LabelRecord) :=
  if labels.isEmpty then .ok none else some <$> LabelRecord.ofLabels labels

/-- Stores a node. Gives the stored node and its record. -/
def createNode (collection : Collection) (node : Node) : Action (Node × NodeRecord) := do
  Action.of (Engine.checkKeys node.properties)
  let labelRecord ← Action.of (labelRecord? node.labels)
  let plan ← collection.planProperties (Engine.storedProperties node)
  collection.verify
  let labels ← labelRecord.mapM fun record => do (← collection.labels).append record
  let properties ← collection.writeProperties plan
  let id ← collection.addNode labels properties
  return ({ node with id := some id, relationships := [] }, .fresh labels properties)

/-- The relationships of a node, the newest first, that begin with `head`. -/
def relationshipsOf (collection : Collection) (id : RecordId) (head : Option RecordId) :
    Action (List RecordId) := do
  let file ← collection.relationships
  let limit ← file.count
  let visit (relationship : RecordId) : Action (RecordId × Option RecordId) := do
    let record ← file.readInUse relationship
    return (relationship, record.next id)
  walk visit (.invalidReference s!"relationship chain of node {id} does not terminate") limit head

def getNode (collection : Collection) (id : RecordId) : Action Node := do
  let record ← (← collection.nodes).readInUse id
  let labels ←
    match record.labels with
    | some labels => collection.readLabels labels
    | none => pure []
  let stored ← collection.readProperties record.properties
  let relationships ← collection.relationshipsOf id record.relationships
  return {
    id := some id, name := Engine.nameOf? stored, labels
    properties := stored.filter (!Engine.isName ·), relationships }

end Collection

namespace Engine

def createNode (engine : Engine) (collection : String) (node : Node) :
    Action (Node × NodeRecord) := do
  (← Action.of (engine.collection collection)).createNode node

def getNode (engine : Engine) (collection : String) (id : RecordId) : Action Node := do
  (← Action.of (engine.collection collection)).getNode id

end Engine

end GraphStore
