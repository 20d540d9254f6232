import GraphStore.Proofs.Engine.Reading

/-!
# Storing a node

Main statement: whatever happens while a node is stored, the records are those of the graph with
or without it, and an error leaves it out.
-/

set_option autoImplicit false

namespace GraphStore

open StoredRecord

theorem NodeRecord.Present.faithful {record : NodeRecord} (present : record.Present) :
    Faithful record :=
  NodeRecord.faithful present.1 present.2.1 present.2.2

section

variable {before stores : Stores} {graph : StoredGraph}

theorem NodeAt.set {kind : StoreKind} (apart : kind = .node ∨ kind = .nodeId)
    (records : List kind.Record) {id : RecordId} {record : NodeRecord} {node : Node}
    (held : NodeAt stores id record node) : NodeAt (stores.set kind records) id record node := by
  refine held.grown (.set stores ?_ records) ?_
  · rcases apart with rfl | rfl <;> decide
  · intro number other found
    refine ⟨other, ?_, rfl⟩
    rcases apart with rfl | rfl <;> rwa [Stores.set_of_ne stores (by decide)]

theorem RelationshipAt.set {kind : StoreKind} (apart : ¬kind.IsAside) (records : List kind.Record)
    {record : RelationshipRecord} {relationship : Relationship}
    (held : RelationshipAt stores record relationship) :
    RelationshipAt (stores.set kind records) record relationship :=
  held.grown (.set stores apart records)

/-- A record of a node that is added at the end is that of the next node. -/
theorem Represents.addNode (represents : Represents stores graph) {record : NodeRecord}
    {node : Node}
    (held : NodeAt stores (UInt32.ofNat graph.nodes.length) record { node with relationships := [] }) :
    Represents (stores.set .node (stores .node ++ [record])) (graph.withNode node) where
  nodes := by
    rw [Stores.set_self, StoredGraph.withNode]
    simp only [List.length_append, List.length_singleton, represents.nodes]
  nodeAt number other stored found named := by
    rw [Stores.set_self] at found
    rw [StoredGraph.withNode] at named
    apply NodeAt.set (.inl rfl)
    by_cases last : number = graph.nodes.length
    · subst last
      rw [← represents.nodes, List.getElem?_concat_length] at found
      rw [List.getElem?_concat_length] at named
      obtain rfl := Option.some.inj found
      obtain rfl := Option.some.inj named
      exact held
    · rw [getElem?_concat_of_ne (represents.nodes ▸ last)] at found
      rw [getElem?_concat_of_ne last] at named
      exact represents.nodeAt number other stored found named
  relationships := by
    rw [Stores.set_of_ne stores (by decide)]
    exact represents.relationships.imp fun _ _ there => there.set (by decide) _
  ids := by
    rw [Stores.set_self, Stores.set_of_ne stores (by decide), List.length_append]
    exact Nat.le_add_right_of_le represents.ids

theorem Represents.addNodeId (represents : Represents stores graph)
    (room : (stores .nodeId).length < (stores .node).length) (record : NodeIdRecord) :
    Represents (stores.set .nodeId (stores .nodeId ++ [record])) graph where
  nodes := by
    rw [Stores.set_of_ne stores (by decide)]
    exact represents.nodes
  nodeAt number other stored found named := by
    rw [Stores.set_of_ne stores (by decide)] at found
    exact (represents.nodeAt number other stored found named).set (.inr rfl) _
  relationships := by
    rw [Stores.set_of_ne stores (by decide)]
    exact represents.relationships.imp fun _ _ there => there.set (by decide) _
  ids := by
    rw [Stores.set_self, Stores.set_of_ne stores (by decide), List.length_append]
    exact room

end

/-!
## Writing
-/

namespace Site

variable {site : Site} {before : Stores} {graph : StoredGraph}

/-- Labels are added and held by the record with their number. -/
theorem enriching_appendLabels {labels : List String} {record : LabelRecord}
    (made : LabelRecord.ofLabels labels = .ok record) :
    site.Enriching ((site.file .label).append record) before fun id stores =>
      (some id ≠ some absentId ∧ LabelsAt stores (some id) labels) ∧
        stores .index = before .index := by
  refine enriching_appendAll (by decide) ?_ fun room => ?_
  · intro _ other member
    exact List.mem_singleton.mp member ▸ LabelRecord.faithful_of_ofLabels made
  · obtain ⟨-, -, -, rfl⟩ := LabelRecord.ofLabels_eq_ok_iff.mp made
    have short : (before .label).length < RecordFile.idLimit := by omega
    refine ⟨⟨ofNat_ne_absentId short, ⟨true, 0, labels⟩, ?_, rfl, rfl⟩,
      Stores.set_of_ne before (by decide) _⟩
    rw [Stores.set_self, toNat_ofNat_of_lt short, List.getElem?_concat_length]

private theorem enriching_labelRecord {labels : List String} {record : Option LabelRecord}
    (made : Collection.labelRecord? labels = .ok record) :
    site.Enriching
      (record.mapM fun record => do (← site.collection.labels).append record) before
      fun id stores => (id ≠ some absentId ∧ LabelsAt stores id labels) ∧
        stores .index = before .index := by
  rw [Collection.labelRecord?] at made
  split at made
  next nothing =>
    cases made
    exact (Yields.pure none).enriching ⟨⟨nofun, List.isEmpty_iff.mp nothing⟩, rfl⟩
  next =>
    obtain ⟨record, given, rfl⟩ := exists_of_map_eq_ok made
    have opened : site.Enriching (do (← site.collection.labels).append record) before
        fun id stores => (some id ≠ some absentId ∧ LabelsAt stores (some id) labels) ∧
          stores .index = before .index :=
      (yields_openAs .label).bind_ensures (enriching_appendLabels given)
    exact opened.bind fun id stores _ held => (Yields.pure _).enriching held

/-- A node whose labels and properties are written is added with the next number. -/
private theorem ensures_addNode {stores : Stores} (represents : Represents stores graph)
    {labels properties : Option RecordId} {node : Node}
    (held : NodeAt stores (UInt32.ofNat graph.nodes.length) (.fresh labels properties)
      { node with relationships := [] }) :
    site.Ensures (site.collection.addNode labels properties) stores
      (fun later => Represents later graph ∨ Represents later (graph.withNode node))
      fun outcome later =>
        (∃ error, outcome = .error error ∧ later = stores) ∨
        outcome = .ok (UInt32.ofNat graph.nodes.length) ∧
          Represents later (graph.withNode node) ∧
          later .node = stores .node ++ [.fresh labels properties] ∧
          later .relationship = stores .relationship := by
  have added := represents.addNode held
  have width := represents.nodes
  have appended : site.Ensures ((site.file .node).append (.fresh labels properties)) stores
      (fun later => Represents later graph ∨ Represents later (graph.withNode node))
      fun outcome later =>
        (∃ error, outcome = .error error ∧ later = stores) ∨
        outcome = .ok (UInt32.ofNat graph.nodes.length) ∧
          (stores .node).length + 1 < RecordFile.idLimit ∧
          later = stores.set .node (stores .node ++ [.fresh labels properties]) := by
    refine ensures_append held.present.faithful (fun _ error _ => .inl ⟨error, rfl, rfl⟩) ?_
    intro room
    exact ⟨.inr added, .inr ⟨by rw [width], room, rfl⟩⟩
  refine (yields_openAs .node).bind_ensures (appended.bind ?_ ?_)
  · intro id later ended
    rcases ended with ⟨error, impossible, -⟩ | ⟨same, room, rfl⟩
    · cases impossible
    obtain rfl := Except.ok.inj same
    have fewer := represents.ids
    have listed : (stores.set .node (stores .node ++ [.fresh labels properties])) .nodeId =
        stores .nodeId := Stores.set_of_ne stores (by decide) _
    have longer : ((stores.set .node (stores .node ++ [.fresh labels properties])) .node).length =
        (stores .node).length + 1 := by
      rw [Stores.set_self, List.length_append, List.length_singleton]
    have final := added.addNodeId (by rw [listed, longer]; omega)
      { inUse := true, node := UInt32.ofNat graph.nodes.length }
    have idAppended : site.Ensures
        ((site.file .nodeId).append { inUse := true, node := UInt32.ofNat graph.nodes.length })
        (stores.set .node (stores .node ++ [.fresh labels properties]))
        (fun later => Represents later graph ∨ Represents later (graph.withNode node))
        fun outcome later =>
          (∃ id, outcome = .ok id) ∧ Represents later (graph.withNode node) ∧
            later .node = stores .node ++ [.fresh labels properties] ∧
            later .relationship = stores .relationship := by
      refine ensures_append (NodeIdRecord.faithful _) ?_ fun _ => ⟨.inr final, ⟨_, rfl⟩, final, ?_, ?_⟩
      · intro full
        rw [listed] at full
        omega
      · rw [Stores.set_of_ne _ (by decide), Stores.set_self]
      · rw [Stores.set_of_ne _ (by decide), Stores.set_of_ne stores (by decide)]
    refine (yields_openAs .nodeId).bind_ensures (idAppended.bind ?_ ?_)
    · intro id later ended
      obtain ⟨-, ends⟩ := ended
      exact (Yields.pure _).ensures (.inr ⟨rfl, ends⟩)
    · intro error later ended
      obtain ⟨⟨id, impossible⟩, -⟩ := ended
      cases impossible
  · intro error later ended
    rcases ended with ⟨other, same, rfl⟩ | ⟨impossible, -⟩
    · exact .inl ⟨error, rfl, rfl⟩
    · cases impossible

/-- Whether some records are those of a graph with or without a node. -/
def Adding (graph : StoredGraph) (node : Node) (stores : Stores) : Prop :=
  Represents stores graph ∨ Represents stores (graph.withNode node)

/-- How an attempt to store a node ends. An error leaves it out, and success gives it the next
number. -/
def EndsAdding (graph : StoredGraph) (node : Node) (before : Stores)
    (outcome : Except Error (Node × NodeRecord)) (stores : Stores) : Prop :=
  (∃ error, outcome = .error error ∧ Represents stores graph ∧ stores .node = before .node ∧
    stores .relationship = before .relationship) ∨
  ∃ record : NodeRecord, record.relationships = none ∧
    outcome = .ok ({ node with
      id := some (UInt32.ofNat graph.nodes.length), relationships := [] }, record) ∧
    Represents stores (graph.withNode node) ∧ stores .node = before .node ++ [record] ∧
    stores .relationship = before .relationship

/-- While a node is stored, the records are those of the graph with or without it. -/
theorem ensures_createNode (represents : Represents before graph) (node : Node) :
    site.Ensures (site.collection.createNode node) before (Adding graph node)
      (EndsAdding graph node before) := by
  refine Ensures.of_bind (fun _ unreserved => ?_) fun error _ =>
    .inl ⟨error, rfl, represents, rfl, rfl⟩
  refine Ensures.of_bind (fun labelRecord labelsMade => ?_) fun error _ =>
    .inl ⟨error, rfl, represents, rfl, rfl⟩
  rcases yields_planProperties (Engine.storedProperties node) with
    ⟨error, refused⟩ | ⟨plan, planned, plans, -⟩
  · exact (refused.bind_error _).ensures (.inl ⟨error, rfl, represents, rfl, rfl⟩)
  refine planned.bind_ensures (yields_verify.bind_ensures ?_)
  refine (enriching_labelRecord labelsMade).bind_ensures
    (fun stores enriched => .inl (represents.enriched enriched)) ?_
    fun error stores enriched => .inl ⟨error, rfl, represents.enriched enriched, enriched.node,
      enriched.relationship⟩
  intro labels middle toMiddle ended
  obtain ⟨⟨labelsPresent, labelsHeld⟩, index⟩ := ended
  have keys : middle.keys = before.keys := congrArg (List.map KeyRecord.name) index
  have represented := represents.enriched toMiddle
  refine (enriching_writeProperties (keys ▸ plans)).bind_ensures
    (fun stores enriched => .inl (represented.enriched enriched)) ?_
    fun error stores enriched => .inl ⟨error, rfl, represented.enriched enriched,
      (toMiddle.trans enriched).node, (toMiddle.trans enriched).relationship⟩
  intro properties last toLast ended
  obtain ⟨propertiesPresent, propertiesHeld⟩ := ended
  have enriched := toMiddle.trans toLast
  have held : NodeAt last (UInt32.ofNat graph.nodes.length) (.fresh labels properties)
      { node with relationships := [] } := {
    present := ⟨labelsPresent, nofun, propertiesPresent⟩
    inUse := rfl
    labels := labelsHeld.grown toLast.grows
    properties := propertiesHeld
    unreserved
    relationships := ⟨[], .nil, rfl⟩ }
  refine (ensures_addNode (represents.enriched enriched) held).bind ?_ ?_
  · intro id stores ended
    rcases ended with ⟨error, impossible, -⟩ | ⟨same, added, nodes, relationships⟩
    · cases impossible
    obtain rfl := Except.ok.inj same
    refine (Yields.pure _).ensures (.inr ⟨.fresh labels properties, rfl, rfl, added, ?_, ?_⟩)
    · rw [nodes, enriched.node]
    · rw [relationships, enriched.relationship]
  · intro error stores ended
    rcases ended with ⟨other, -, rfl⟩ | ⟨impossible, -⟩
    · exact .inl ⟨error, rfl, represents.enriched enriched, enriched.node, enriched.relationship⟩
    · cases impossible

end Site

end GraphStore
