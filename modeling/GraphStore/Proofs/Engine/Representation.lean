import GraphStore.Engine.Relationships
import GraphStore.Proofs.Collection.Properties

/-!
# Graphs in the files of a collection

Which graph the records of a collection represent, and what reading gives from them. Main
statements: a node and a relationship that are represented are read back as they are, and a number
that no record has is not found.
-/

set_option autoImplicit false

namespace GraphStore

/-- Nodes and relationships in the order of their numbers. -/
structure StoredGraph where
  nodes : List Node
  relationships : List Relationship
deriving Repr, DecidableEq

namespace StoredGraph

def empty : StoredGraph := ⟨[], []⟩

/-- The graph with another node, at which no relationship stands. -/
def withNode (graph : StoredGraph) (node : Node) : StoredGraph :=
  { graph with nodes := graph.nodes ++ [{ node with relationships := [] }] }

/-- The graph with another relationship, which is the newest one of some nodes. -/
def attach (graph : StoredGraph) (relationship : Relationship) (ends : List RecordId) :
    StoredGraph where
  nodes := graph.nodes.mapIdx fun number node =>
    if number ∈ ends.map UInt32.toNat then
      { node with relationships := UInt32.ofNat graph.relationships.length :: node.relationships }
    else node
  relationships := graph.relationships ++ [relationship]

end StoredGraph

/-!
## Records of nodes and relationships
-/

/-- Whether no pointer of a record has the number that stands for none. -/
def NodeRecord.Present (record : NodeRecord) : Prop :=
  record.labels ≠ some absentId ∧ record.relationships ≠ some absentId ∧
    record.properties ≠ some absentId

/-- Whether no pointer of a record has the number that stands for none. -/
structure RelationshipRecord.Present (record : RelationshipRecord) : Prop where
  firstPrevious : record.firstPrevious ≠ some absentId
  firstNext : record.firstNext ≠ some absentId
  secondPrevious : record.secondPrevious ≠ some absentId
  secondNext : record.secondNext ≠ some absentId
  properties : record.properties ≠ some absentId

/-- Whether a label record, or none, holds some labels. -/
def LabelsAt (stores : Stores) : Option RecordId → List String → Prop
  | none, labels => labels = []
  | some id, labels =>
      ∃ record, (stores .label)[id.toNat]? = some record ∧ record.inUse = true ∧
        record.labels = labels

/-- Whether a record is that of a node with this number. -/
structure NodeAt (stores : Stores) (id : RecordId) (record : NodeRecord) (node : Node) : Prop where
  present : record.Present
  inUse : record.inUse = true
  labels : LabelsAt stores record.labels node.labels
  properties : PropertiesAt stores record.properties (Engine.storedProperties node)
  unreserved : Engine.checkKeys node.properties = .ok ()
  relationships : ∃ visited,
    Chain (stores .relationship) (fun other => other.next id) record.relationships visited ∧
      visited.map Prod.fst = node.relationships

/-- Whether a record is that of a relationship. -/
structure RelationshipAt (stores : Stores) (record : RelationshipRecord)
    (relationship : Relationship) : Prop where
  present : record.Present
  inUse : record.inUse = true
  source : record.first = relationship.source
  target : record.second = relationship.target
  labels : LabelsAt stores (some record.kind) (Collection.kindLabels relationship)
  properties : PropertiesAt stores record.properties relationship.properties

/-- Whether the records of a collection are those of a graph. -/
structure Represents (stores : Stores) (graph : StoredGraph) : Prop where
  nodes : (stores .node).length = graph.nodes.length
  nodeAt (number : Nat) (record : NodeRecord) (node : Node) :
    (stores .node)[number]? = some record → graph.nodes[number]? = some node →
      NodeAt stores (UInt32.ofNat number) record node
  relationships :
    List.Forall₂ (RelationshipAt stores) (stores .relationship) graph.relationships
  /-- A node is never missing from the list of ids for want of room. -/
  ids : (stores .nodeId).length ≤ (stores .node).length

theorem represents_empty : Represents .empty .empty where
  nodes := rfl
  nodeAt _ _ _ found := by cases found
  relationships := .nil
  ids := Nat.le_refl _

section

variable {before stores : Stores} {graph : StoredGraph}

theorem LabelsAt.grown {id : Option RecordId} {labels : List String}
    (held : LabelsAt before id labels) (grows : Grows before stores) :
    LabelsAt stores id labels := by
  cases id with
  | none => exact held
  | some id =>
      obtain ⟨record, found, inUse, same⟩ := held
      exact ⟨record, getElem?_of_grown (grows .label (by decide)) found, inUse, same⟩

theorem RelationshipAt.grown {record : RelationshipRecord} {relationship : Relationship}
    (held : RelationshipAt before record relationship) (grows : Grows before stores) :
    RelationshipAt stores record relationship where
  __ := held
  labels := held.labels.grown grows
  properties := held.properties.grown grows

theorem NodeAt.grown {id : RecordId} {record : NodeRecord} {node : Node}
    (held : NodeAt before id record node) (grows : Grows before stores)
    (kept : ∀ (number : Nat) other, (before .relationship)[number]? = some other →
      ∃ later, (stores .relationship)[number]? = some later ∧ later.next id = other.next id) :
    NodeAt stores id record node where
  __ := held
  labels := held.labels.grown grows
  properties := held.properties.grown grows
  relationships := by
    obtain ⟨visited, chain, same⟩ := held.relationships
    obtain ⟨visitedLater, chainLater, sameLater⟩ := chain.changed kept
    exact ⟨visitedLater, chainLater, sameLater.trans same⟩

theorem Represents.enriched (represents : Represents before graph)
    (enriched : Enriches before stores) : Represents stores graph where
  nodes := by rw [enriched.node, represents.nodes]
  nodeAt number record node found stored := by
    rw [enriched.node] at found
    refine (represents.nodeAt number record node found stored).grown enriched.grows ?_
    intro number other there
    exact ⟨other, enriched.relationship ▸ there, rfl⟩
  relationships := by
    rw [enriched.relationship]
    exact represents.relationships.imp fun _ _ held => held.grown enriched.grows
  ids := by
    rw [enriched.nodeId, enriched.node]
    exact represents.ids

theorem Represents.exists_record (represents : Represents stores graph) {number : Nat} {node : Node}
    (stored : graph.nodes[number]? = some node) :
    ∃ record, (stores .node)[number]? = some record ∧
      NodeAt stores (UInt32.ofNat number) record node := by
  obtain ⟨inside, -⟩ := List.getElem?_eq_some_iff.mp stored
  rw [← represents.nodes] at inside
  have found := List.getElem?_eq_getElem inside
  exact ⟨_, found, represents.nodeAt number _ node found stored⟩

theorem Represents.exists_relationship (represents : Represents stores graph) {number : Nat}
    {relationship : Relationship} (stored : graph.relationships[number]? = some relationship) :
    ∃ record, (stores .relationship)[number]? = some record ∧
      RelationshipAt stores record relationship := by
  have related := represents.relationships
  have width := related.length_eq
  obtain ⟨inside, same⟩ := List.getElem?_eq_some_iff.mp stored
  have insideRecords := inside
  rw [← width] at insideRecords
  refine ⟨_, List.getElem?_eq_getElem insideRecords, ?_⟩
  rw [← same]
  exact related.get insideRecords inside

theorem Represents.exists_of_record (represents : Represents stores graph) {number : Nat}
    {record : RelationshipRecord} (found : (stores .relationship)[number]? = some record) :
    ∃ relationship, graph.relationships[number]? = some relationship ∧
      RelationshipAt stores record relationship := by
  have related := represents.relationships
  have width := related.length_eq
  obtain ⟨inside, same⟩ := List.getElem?_eq_some_iff.mp found
  have insideGraph := inside
  rw [width] at insideGraph
  refine ⟨_, List.getElem?_eq_getElem insideGraph, ?_⟩
  rw [← same]
  exact related.get inside insideGraph

end

end GraphStore
