import GraphStore.Engine.Nodes
import GraphStore.Graph.Relationship

/-!
# Storing relationships

A new relationship becomes the first in the chains of both its nodes. The former first ones get a
link back to it, and then the nodes point at it.
-/

set_option autoImplicit false

namespace GraphStore

namespace Collection

def endpoint (nodes : RecordFile NodeRecord) (id : RecordId) : Action NodeRecord :=
  tryCatch (nodes.readInUse id) fun
    | .notFound _ => throw (.invalidReference s!"node {id} does not exist")
    | error => throw error

/-- Links the former first relationship of a node back to a new one. -/
def linkBack (file : RecordFile RelationshipRecord) (node : RecordId) (former : Option RecordId)
    (id : RecordId) : Action Unit := do
  if let some head := former then
    let record ← file.read head
    file.writeAt head (record.setPrevious node (some id))

/-- The texts under which the type and the label of a relationship are stored. -/
def kindLabels (relationship : Relationship) : List String :=
  relationship.kind :: relationship.label.toList

def createRelationship (collection : Collection) (relationship : Relationship) :
    Action Relationship := do
  let nodes ← collection.nodes
  let source := relationship.source
  let target := relationship.target
  let sourceRecord ← endpoint nodes source
  let targetRecord ← endpoint nodes target
  Action.of (Engine.checkKeys relationship.properties)
  if relationship.kind.isEmpty then
    throw (.valueOutOfRange "relationship type must not be empty")
  let kindRecord ← Action.of (LabelRecord.ofLabels (kindLabels relationship))
  let plan ← collection.planProperties relationship.properties
  collection.verify
  let kind ← (← collection.labels).append kindRecord
  let properties ← collection.writeProperties plan
  let file ← collection.relationships
  let id ← file.append {
    inUse := true, first := source, second := target, kind
    firstPrevious := none, firstNext := sourceRecord.relationships
    secondPrevious := none, secondNext := targetRecord.relationships, properties }
  linkBack file source sourceRecord.relationships id
  if source ≠ target then linkBack file target targetRecord.relationships id
  nodes.writeAt source { sourceRecord with relationships := some id }
  if source ≠ target then nodes.writeAt target { targetRecord with relationships := some id }
  return { relationship with id := some id }

def getRelationship (collection : Collection) (id : RecordId) : Action Relationship := do
  let record ← (← collection.relationships).readInUse id
  match ← collection.readLabels record.kind with
  | [] =>
      throw (.invalidReference
        s!"relationship {id} points at an empty type record {record.kind}")
  | kind :: others =>
      return {
        id := some id, source := record.first, target := record.second, kind
        label := others.head?, properties := ← collection.readProperties record.properties }

end Collection

namespace Engine

def createRelationship (engine : Engine) (collection : String) (relationship : Relationship) :
    Action Relationship := do
  (← Action.of (engine.collection collection)).createRelationship relationship

def getRelationship (engine : Engine) (collection : String) (id : RecordId) :
    Action Relationship := do
  (← Action.of (engine.collection collection)).getRelationship id

end Engine

end GraphStore
