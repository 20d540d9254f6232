import GraphStore.Proofs.Engine.Session

/-!
# Collections as graphs

A graph as the list of the nodes and of the relationships that were given to the store, in the order
in which they were stored, says how each call on a collection answers. Main statement: whatever
calls are made on a collection that was just made, and however often its database is opened again
between them, the answers are those of such a graph.
-/

set_option autoImplicit false

namespace GraphStore

namespace StoredGraph

/-- The numbers of the relationships that begin or end at a node, the newest first. -/
def incident (graph : StoredGraph) (id : RecordId) : List RecordId :=
  ((graph.relationships.zipIdx.filter fun entry =>
    entry.1.source = id ∨ entry.1.target = id).map fun entry => UInt32.ofNat entry.2).reverse

/-- How a graph of the nodes and relationships that were given may answer a call, and what it is
then. A call that is refused leaves it as it is. -/
inductive Permits (graph : StoredGraph) : Call → Answer → StoredGraph → Prop where
  | nodeStored (node : Node) (id : RecordId) (next : id.toNat = graph.nodes.length) :
      Permits graph (.createNode node)
        (.node (.ok { node with id := some id, relationships := [] }))
        { graph with nodes := graph.nodes ++ [node] }
  | nodeRefused (node : Node) (error : Error) :
      Permits graph (.createNode node) (.node (.error error)) graph
  | relationshipStored (relationship : Relationship) (id : RecordId)
      (next : id.toNat = graph.relationships.length)
      (source : relationship.source.toNat < graph.nodes.length)
      (target : relationship.target.toNat < graph.nodes.length) :
      Permits graph (.createRelationship relationship)
        (.relationship (.ok { relationship with id := some id }))
        { graph with relationships := graph.relationships ++ [relationship] }
  | relationshipRefused (relationship : Relationship) (error : Error) :
      Permits graph (.createRelationship relationship) (.relationship (.error error)) graph
  | nodeFound (id : RecordId) (node : Node) (stored : graph.nodes[id.toNat]? = some node) :
      Permits graph (.getNode id)
        (.node (.ok { node with id := some id, relationships := graph.incident id })) graph
  | nodeMissing (id : RecordId) (detail : String) (missing : graph.nodes[id.toNat]? = none) :
      Permits graph (.getNode id) (.node (.error (.notFound detail))) graph
  | relationshipFound (id : RecordId) (relationship : Relationship)
      (stored : graph.relationships[id.toNat]? = some relationship) :
      Permits graph (.getRelationship id)
        (.relationship (.ok { relationship with id := some id })) graph
  | relationshipMissing (id : RecordId) (detail : String)
      (missing : graph.relationships[id.toNat]? = none) :
      Permits graph (.getRelationship id) (.relationship (.error (.notFound detail))) graph
  | reopened (options : EngineOptions) (now : Int64) :
      Permits graph (.reopen options now) (.reopened (.ok ())) graph

/-- How a graph may answer calls one after another, and what it is behind them. -/
inductive PermitsAll : StoredGraph → List Call → List Answer → StoredGraph → Prop where
  | nil (graph : StoredGraph) : PermitsAll graph [] [] graph
  | cons {graph middle last : StoredGraph} {call : Call} {calls : List Call} {answer : Answer}
      {answers : List Answer} (first : graph.Permits call answer middle)
      (rest : PermitsAll middle calls answers last) :
      PermitsAll graph (call :: calls) (answer :: answers) last

/-- The graph whose nodes know their relationships. -/
def linked (graph : StoredGraph) : StoredGraph where
  nodes := graph.nodes.mapIdx fun number node =>
    { node with relationships := graph.incident (UInt32.ofNat number) }
  relationships := graph.relationships

/-- Whether all relationships are between nodes of the graph. -/
def Closed (graph : StoredGraph) : Prop :=
  ∀ relationship ∈ graph.relationships, relationship.source.toNat < graph.nodes.length ∧
    relationship.target.toNat < graph.nodes.length

section

variable {graph : StoredGraph} {node : Node} {relationship : Relationship} {id : RecordId}

@[simp] theorem length_nodes_linked : graph.linked.nodes.length = graph.nodes.length := by
  simp [linked]

theorem getElem?_nodes_linked (number : Nat) :
    graph.linked.nodes[number]? = graph.nodes[number]?.map fun node =>
      { node with relationships := graph.incident (UInt32.ofNat number) } :=
  List.getElem?_mapIdx

theorem incident_concat :
    incident { graph with relationships := graph.relationships ++ [relationship] } id =
      if relationship.source = id ∨ relationship.target = id then
        UInt32.ofNat graph.relationships.length :: graph.incident id
      else graph.incident id := by
  simp only [incident, List.zipIdx_append, List.filter_append, List.map_append,
    List.reverse_append, List.zipIdx_singleton, Nat.zero_add]
  split
  next here => simp [here]
  next away => simp [away]

theorem incident_eq_nil (closed : graph.Closed) (outside : graph.nodes.length ≤ id.toNat) :
    graph.incident id = [] := by
  rw [incident, List.reverse_eq_nil_iff, List.map_eq_nil_iff, List.filter_eq_nil_iff]
  intro ended member
  obtain ⟨relationship, number⟩ := ended
  obtain ⟨source, target⟩ := closed relationship (List.fst_mem_of_mem_zipIdx member)
  rw [decide_eq_true_eq]
  intro given
  rcases given with rfl | rfl
  · exact absurd source (Nat.not_lt.mpr outside)
  · exact absurd target (Nat.not_lt.mpr outside)

/-- A new node knows no relationships, as all are between nodes that were there before. -/
theorem linked_withNode (closed : graph.Closed) (room : graph.nodes.length < RecordFile.idLimit) :
    linked { graph with nodes := graph.nodes ++ [node] } = graph.linked.withNode node := by
  have none : graph.incident (UInt32.ofNat graph.nodes.length) = [] := by
    apply incident_eq_nil closed
    rw [toNat_ofNat_of_lt room]
  rw [linked, withNode, linked, List.mapIdx_concat]
  simp only
  rw [← none]
  rfl

/-- A new relationship is the newest one of its ends. -/
theorem linked_attach (room : graph.nodes.length < RecordFile.idLimit) :
    linked { graph with relationships := graph.relationships ++ [relationship] } =
      graph.linked.attach relationship [relationship.source, relationship.target] := by
  rw [linked, attach]
  congr 1
  apply List.ext_getElem?
  intro number
  rw [List.getElem?_mapIdx, List.getElem?_mapIdx, getElem?_nodes_linked, Option.map_map]
  refine Option.map_congr fun node stored => ?_
  obtain ⟨inside, -⟩ := List.getElem?_eq_some_iff.mp stored
  have exact : (UInt32.ofNat number).toNat = number := toNat_ofNat_of_lt (inside.trans room)
  have isEnd : number ∈ [relationship.source, relationship.target].map UInt32.toNat ↔
      relationship.source = UInt32.ofNat number ∨ relationship.target = UInt32.ofNat number := by
    have same : ∀ id : RecordId, number = id.toNat ↔ id = UInt32.ofNat number := by
      intro id
      constructor
      · intro same
        subst same
        rw [UInt32.ofNat_toNat]
      · intro same
        subst same
        exact exact.symm
    simp only [List.map_cons, List.map_nil, List.mem_cons, List.not_mem_nil, or_false, same]
  rw [incident_concat]
  simp only [Function.comp_apply, isEnd]
  split
  · rfl
  · rfl

theorem Closed.withNode (closed : graph.Closed) :
    Closed { graph with nodes := graph.nodes ++ [node] } := by
  intro relationship member
  obtain ⟨source, target⟩ := closed relationship member
  simp only [List.length_append, List.length_singleton]
  exact ⟨by omega, by omega⟩

theorem Closed.withRelationship (closed : graph.Closed)
    (source : relationship.source.toNat < graph.nodes.length)
    (target : relationship.target.toNat < graph.nodes.length) :
    Closed { graph with relationships := graph.relationships ++ [relationship] } := by
  intro other member
  rcases List.mem_append.mp member with former | new
  · exact closed other former
  · obtain rfl := List.mem_singleton.mp new
    exact ⟨source, target⟩

end

end StoredGraph

/-!
## Answers of a session
-/

namespace Session

variable {name : String} {session : Session} {graph : StoredGraph}

/-- Whether the files of a collection hold the nodes and relationships of a graph, linked with one
another. -/
def Reflects (name : String) (session : Session) (graph : StoredGraph) : Prop :=
  graph.Closed ∧ ∃ stores, session.Holds name stores ∧ Represents stores graph.linked

theorem IsFresh.reflects_empty (fresh : session.IsFresh name) : session.Reflects name .empty :=
  ⟨nofun, .empty, fresh.holds_empty, represents_empty⟩

/-- A call answers as the graph does. -/
theorem Reflects.step (reflects : session.Reflects name graph) (call : Call) :
    ∃ later, graph.Permits call (session.step name call).1 later ∧
      Reflects name (session.step name call).2 later := by
  obtain ⟨closed, before, holds, represents⟩ := reflects
  obtain ⟨stores, laterHolds, behaves⟩ := holds.step represents call
  have room : graph.nodes.length < RecordFile.idLimit := by
    rw [← StoredGraph.length_nodes_linked, ← represents.nodes]
    exact holds.length_lt .node
  generalize (session.step name call).1 = answer at behaves ⊢
  cases behaves with
  | @createNode node _ _ ends =>
      rcases ends with ⟨error, rfl, same, -⟩ | ⟨record, -, rfl, added, -⟩
      · exact ⟨graph, .nodeRefused _ _, closed, stores, laterHolds, same⟩
      · rw [StoredGraph.length_nodes_linked]
        refine ⟨_, .nodeStored node _ (toNat_ofNat_of_lt room), closed.withNode, stores, laterHolds,
          ?_⟩
        rw [StoredGraph.linked_withNode closed room]
        exact added
  | @createRelationship relationship _ _ ends =>
      rcases ends with ⟨error, rfl, same, -⟩ | ⟨rfl, joined, record, first, second, joins⟩
      · exact ⟨graph, .relationshipRefused _ _, closed, stores, laterHolds, same⟩
      · have isNode : ∀ {id : RecordId} {node : NodeRecord},
            (before .node)[id.toNat]? = some node → id.toNat < graph.nodes.length := by
          intro id node found
          obtain ⟨inside, -⟩ := List.getElem?_eq_some_iff.mp found
          rwa [represents.nodes, StoredGraph.length_nodes_linked] at inside
        obtain ⟨_, sourceThere, -⟩ := joins.source
        obtain ⟨_, targetThere, -⟩ := joins.target
        have source := first ▸ isNode sourceThere
        have target := second ▸ isNode targetThere
        have number : (UInt32.ofNat graph.relationships.length).toNat =
            graph.relationships.length := by
          have width : (before .relationship).length = graph.relationships.length :=
            represents.relationships.length_eq
          exact toNat_ofNat_of_lt (Nat.lt_of_succ_lt (width ▸ joins.room))
        refine ⟨_, .relationshipStored relationship _ number source target,
          closed.withRelationship source target, stores, laterHolds, ?_⟩
        rw [StoredGraph.linked_attach room]
        exact joined
  | @nodeFound id _ stored =>
      rw [StoredGraph.getElem?_nodes_linked, UInt32.ofNat_toNat] at stored
      obtain ⟨node, given, rfl⟩ := Option.map_eq_some_iff.mp stored
      exact ⟨graph, .nodeFound id node given, closed, before, laterHolds, represents⟩
  | nodeMissing missing =>
      rw [StoredGraph.getElem?_nodes_linked, Option.map_eq_none_iff] at missing
      exact ⟨graph, .nodeMissing _ _ missing, closed, before, laterHolds, represents⟩
  | relationshipFound stored =>
      exact ⟨graph, .relationshipFound _ _ stored, closed, before, laterHolds, represents⟩
  | relationshipMissing missing =>
      exact ⟨graph, .relationshipMissing _ _ missing, closed, before, laterHolds, represents⟩
  | reopen => exact ⟨graph, .reopened _ _, closed, before, laterHolds, represents⟩

theorem Reflects.run (reflects : session.Reflects name graph) (calls : List Call) :
    ∃ later, StoredGraph.PermitsAll graph calls (session.run name calls).1 later ∧
      Reflects name (session.run name calls).2 later := by
  induction calls generalizing session graph with
  | nil => exact ⟨graph, .nil graph, reflects⟩
  | cons call calls ih =>
      obtain ⟨middle, first, middleReflects⟩ := reflects.step call
      obtain ⟨last, rest, lastReflects⟩ := ih middleReflects
      exact ⟨last, .cons first rest, lastReflects⟩

/-- Whatever calls are made on a collection that was just made, the answers are those of a graph of
the nodes and relationships that were given. -/
theorem run_refines_graph (fresh : session.IsFresh name) (calls : List Call) :
    ∃ graph, StoredGraph.PermitsAll .empty calls (session.run name calls).1 graph := by
  obtain ⟨graph, permitted, -⟩ := fresh.reflects_empty.run calls
  exact ⟨graph, permitted⟩

/-- A node with a loop, read from a database that was opened again. -/
theorem loop_refines_graph :
    firstCollection.IsFresh "c" ∧ ∃ graph, StoredGraph.PermitsAll .empty
      [.createNode { Node.named "a" with labels := ["L"], properties := [⟨"k", .text "v"⟩] },
        .createRelationship (.between 0 0 "LOOP"), .createRelationship (.between 0 1 "OUT"),
        .reopen ⟨.big, false⟩ 1, .getNode 0, .getRelationship 0, .getNode 1]
      [.node (.ok { Node.named "a" with
          id := some 0, labels := ["L"], properties := [⟨"k", .text "v"⟩] }),
        .relationship (.ok { Relationship.between 0 0 "LOOP" with id := some 0 }),
        .relationship (.error (.invalidReference "node 1 does not exist")),
        .reopened (.ok ()),
        .node (.ok { Node.named "a" with
          id := some 0, labels := ["L"], properties := [⟨"k", .text "v"⟩], relationships := [0] }),
        .relationship (.ok { Relationship.between 0 0 "LOOP" with id := some 0 }),
        .node (.error (.notFound "node record 1 (store holds 1)"))] graph := by
  refine ⟨isFresh_firstCollection, ?_⟩
  obtain ⟨graph, permitted⟩ := run_refines_graph isFresh_firstCollection
    [.createNode { Node.named "a" with labels := ["L"], properties := [⟨"k", .text "v"⟩] },
      .createRelationship (.between 0 0 "LOOP"), .createRelationship (.between 0 1 "OUT"),
      .reopen ⟨.big, false⟩ 1, .getNode 0, .getRelationship 0, .getNode 1]
  refine ⟨graph, ?_⟩
  convert permitted using 1
  decide +kernel

end Session

end GraphStore
