import GraphStore.Proofs.Engine.Representation

/-!
# Reading a graph back

Main statements: a node and a relationship that are represented are read back as they are, and a
number that none has is not found.
-/

set_option autoImplicit false

namespace GraphStore

namespace Engine

variable {node : Node}

theorem isName_eq_false {properties : List Property} (unreserved : checkKeys properties = .ok ()) :
    ∀ property ∈ properties, isName property = false := by
  intro property member
  rw [checkKeys] at unreserved
  split at unreserved
  next => cases unreserved
  next none =>
    have free := List.find?_eq_none.mp none property member
    unfold isName
    split
    next =>
      rw [beq_eq_false_iff_ne]
      intro reserved
      rw [reserved] at free
      exact free rfl
    next => rfl

/-- The name of a node is found again among its stored properties. -/
theorem nameOf?_storedProperties (unreserved : checkKeys node.properties = .ok ()) :
    nameOf? (storedProperties node) = node.name := by
  have none : node.properties.filter isName = [] := by
    rw [List.filter_eq_nil_iff]
    intro property member
    rw [isName_eq_false unreserved property member]
    exact Bool.false_ne_true
  rw [nameOf?, storedProperties, List.filter_append, none, List.append_nil]
  cases node.name with
  | none => rfl
  | some name => rfl

theorem filter_storedProperties (unreserved : checkKeys node.properties = .ok ()) :
    (storedProperties node).filter (!isName ·) = node.properties := by
  have all : node.properties.filter (!isName ·) = node.properties := by
    rw [List.filter_eq_self]
    intro property member
    rw [isName_eq_false unreserved property member]
    rfl
  rw [storedProperties, List.filter_append, all]
  cases node.name with
  | none => rfl
  | some name => rfl

end Engine

namespace Site

variable {site : Site} {stores : Stores} {graph : StoredGraph}

theorem yields_readLabels {id : RecordId} {labels : List String}
    (held : LabelsAt stores (some id) labels) :
    site.Yields (site.collection.readLabels id) stores (.ok labels) := by
  obtain ⟨record, found, inUse, rfl⟩ := held
  exact (yields_openAs .label).bind ((yields_readInUse found inUse).bind (.pure _))

/-- A chain of relationships gives their numbers. -/
theorem yields_relationshipsOf (represents : Represents stores graph) {id : RecordId}
    {head : Option RecordId} {visited : List (RecordId × RelationshipRecord)}
    (chain : Chain (stores .relationship) (fun record => record.next id) head visited) :
    site.Yields (site.collection.relationshipsOf id head) stores
      (.ok (visited.map Prod.fst)) := by
  refine (yields_openAs .relationship).bind ((yields_count .relationship).bind ?_)
  refine chain.yields_walk ?_ _ chain.length_le
  refine List.forall₂_map_right_iff.mpr (List.forall₂_same.mpr fun entry member => ?_)
  have found := chain.found entry member
  have inUse : entry.2.inUse = true := by
    obtain ⟨relationship, -, held⟩ := represents.exists_of_record found
    exact held.inUse
  exact (yields_readInUse found inUse).bind (.pure _)

/-- A stored node is read back with its number and the relationships of its chain. -/
theorem yields_getNode (represents : Represents stores graph) {id : RecordId} {node : Node}
    (stored : graph.nodes[id.toNat]? = some node) :
    site.Yields (site.collection.getNode id) stores (.ok { node with id := some id }) := by
  obtain ⟨record, found, held⟩ := represents.exists_record stored
  rw [UInt32.ofNat_toNat] at held
  obtain ⟨visited, chain, same⟩ := held.relationships
  have labels := held.labels
  have rest : site.Yields (do
      let stored ← site.collection.readProperties record.properties
      let relationships ← site.collection.relationshipsOf id record.relationships
      pure ({
        id := some id, name := Engine.nameOf? stored, labels := node.labels
        properties := stored.filter (!Engine.isName ·), relationships } : Node)) stores
      (.ok { node with id := some id }) := by
    refine (yields_readProperties held.properties).bind ?_
    refine (yields_relationshipsOf represents chain).bind ?_
    rw [Engine.nameOf?_storedProperties held.unreserved,
      Engine.filter_storedProperties held.unreserved, same]
    exact .pure _
  refine (yields_openAs .node).bind ((yields_readInUse found held.inUse).bind ?_)
  cases place : record.labels with
  | none =>
      rw [place] at labels
      have read : site.Yields (pure []) stores (.ok node.labels) := by
        rw [labels]
        exact .pure []
      exact read.bind rest
  | some labelRecord =>
      rw [place] at labels
      exact (yields_readLabels labels).bind rest

theorem yields_getNode_none (represents : Represents stores graph) {id : RecordId}
    (missing : graph.nodes[id.toNat]? = none) :
    ∃ detail, site.Yields (site.collection.getNode id) stores (.error (.notFound detail)) := by
  have outside : (stores .node)[id.toNat]? = none := by
    rw [List.getElem?_eq_none_iff] at missing ⊢
    rw [represents.nodes]
    exact missing
  obtain ⟨detail, refused⟩ := yields_readInUse_none outside
  exact ⟨detail, (yields_openAs .node).bind (refused.bind_error _)⟩

theorem yields_getRelationship (represents : Represents stores graph) {id : RecordId}
    {relationship : Relationship}
    (stored : graph.relationships[id.toNat]? = some relationship) :
    site.Yields (site.collection.getRelationship id) stores
      (.ok { relationship with id := some id }) := by
  obtain ⟨record, found, held⟩ := represents.exists_relationship stored
  refine (yields_openAs .relationship).bind ((yields_readInUse found held.inUse).bind ?_)
  refine (yields_readLabels held.labels).bind ?_
  refine (yields_readProperties held.properties).bind ?_
  rw [held.source, held.target]
  have label : relationship.label.toList.head? = relationship.label := by
    cases relationship.label <;> rfl
  rw [label]
  exact .pure _

theorem yields_getRelationship_none (represents : Represents stores graph) {id : RecordId}
    (missing : graph.relationships[id.toNat]? = none) :
    ∃ detail, site.Yields (site.collection.getRelationship id) stores
      (.error (.notFound detail)) := by
  have outside : (stores .relationship)[id.toNat]? = none := by
    rw [List.getElem?_eq_none_iff] at missing ⊢
    rw [represents.relationships.length_eq]
    exact missing
  obtain ⟨detail, refused⟩ := yields_readInUse_none outside
  exact ⟨detail, (yields_openAs .relationship).bind (refused.bind_error _)⟩

end Site

end GraphStore
