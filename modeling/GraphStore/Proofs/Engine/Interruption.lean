import GraphStore.Proofs.Engine.Session

/-!
# Calls that are interrupted

What readers see when work stops between two changes of files, and goes on from there. Main
statement: whatever was interrupted, every node and relationship whose record is there can be read,
what was stored with it never changes, and a relationship that is being stored is only put in front
of those of its two nodes.
-/

set_option autoImplicit false

namespace GraphStore

/-!
## Sessions with interrupted calls
-/

namespace Session

/-- What a look-up of a node gives. -/
def getNode (name : String) (session : Session) (id : RecordId) : Except Error Node :=
  ((session.engine.getNode name id).runOn session.system).1

/-- What a look-up of a relationship gives. -/
def getRelationship (name : String) (session : Session) (id : RecordId) :
    Except Error Relationship :=
  ((session.engine.getRelationship name id).runOn session.system).1

/-- The sessions behind a call: the one behind all its work, and for a call that stores something
also the one behind the first `count` changes of files. -/
inductive LeadsTo (name : String) (session : Session) : Call → Session → Prop where
  | whole (call : Call) : LeadsTo name session call (session.step name call).2
  | nodeInterrupted (node : Node) (count : Nat) :
      LeadsTo name session (.createNode node)
        { session with
          system := (session.engine.createNode name node).outcome.interrupted count
            session.system }
  | relationshipInterrupted (relationship : Relationship) (count : Nat) :
      LeadsTo name session (.createRelationship relationship)
        { session with
          system := (session.engine.createRelationship name relationship).outcome.interrupted count
            session.system }

/-- The sessions behind any number of calls, each of which may have been interrupted. -/
inductive Reaches (name : String) (session : Session) : Session → Prop where
  | refl : Reaches name session session
  | next {later last : Session} {call : Call} (former : Reaches name session later)
      (leads : LeadsTo name later call last) : Reaches name session last

end Session

/-!
## Graphs that differ by one call
-/

namespace StoredGraph

/-- What the graph in the files can be behind a call that may have been interrupted. -/
inductive MayBecome (graph : StoredGraph) : Call → StoredGraph → Prop where
  | same (call : Call) : MayBecome graph call graph
  | node (node : Node) : MayBecome graph (.createNode node) (graph.withNode node)
  | relationship (relationship : Relationship) (ends : List RecordId)
      (among : ends <+: [relationship.source, relationship.target]) :
      MayBecome graph (.createRelationship relationship) (graph.attach relationship ends)

/-- Whether a graph has all nodes and relationships of a former one, but for the relationships of a
node. -/
structure Extends (graph later : StoredGraph) : Prop where
  nodes (number : Nat) (node : Node) : graph.nodes[number]? = some node →
    ∃ again, later.nodes[number]? = some again ∧ again.name = node.name ∧
      again.labels = node.labels ∧ again.properties = node.properties
  relationships : graph.relationships <+: later.relationships

theorem Extends.refl (graph : StoredGraph) : graph.Extends graph where
  nodes _ node stored := ⟨node, stored, rfl, rfl, rfl⟩
  relationships := List.prefix_refl _

theorem Extends.trans {graph middle last : StoredGraph} (first : graph.Extends middle)
    (second : middle.Extends last) : graph.Extends last where
  nodes number node stored := by
    obtain ⟨again, there, name, labels, properties⟩ := first.nodes number node stored
    obtain ⟨final, thereFinal, nameFinal, labelsFinal, propertiesFinal⟩ :=
      second.nodes number again there
    exact ⟨final, thereFinal, nameFinal.trans name, labelsFinal.trans labels,
      propertiesFinal.trans properties⟩
  relationships := first.relationships.trans second.relationships

theorem MayBecome.extends {graph later : StoredGraph} {call : Call}
    (becomes : graph.MayBecome call later) : graph.Extends later := by
  cases becomes with
  | same => exact .refl graph
  | node node =>
      refine ⟨fun number other stored => ?_, List.prefix_refl _⟩
      exact ⟨other, getElem?_of_grown (List.prefix_append _ _) stored, rfl, rfl, rfl⟩
  | relationship relationship ends =>
      refine ⟨fun number node stored => ?_, List.prefix_append _ _⟩
      rw [getElem?_attach, stored]
      refine ⟨_, rfl, ?_⟩
      split
      · exact ⟨rfl, rfl, rfl⟩
      · exact ⟨rfl, rfl, rfl⟩

/-- A relationship that is being stored is put in front of the others of its nodes, or not yet. -/
theorem MayBecome.relationships_eq {graph later : StoredGraph} {relationship : Relationship}
    (becomes : graph.MayBecome (.createRelationship relationship) later) {id : RecordId}
    {node : Node} (stored : graph.nodes[id.toNat]? = some node) :
    ∃ again, later.nodes[id.toNat]? = some again ∧
      (again.relationships = node.relationships ∨
        (id = relationship.source ∨ id = relationship.target) ∧
          again.relationships =
            UInt32.ofNat graph.relationships.length :: node.relationships) := by
  cases becomes with
  | same => exact ⟨node, stored, .inl rfl⟩
  | relationship _ ends among =>
      rw [getElem?_attach, stored]
      refine ⟨_, rfl, ?_⟩
      split
      next isEnd =>
        obtain ⟨other, member, same⟩ := List.mem_map.mp isEnd
        have inside := among.subset (UInt32.toNat.inj same ▸ member)
        exact .inr ⟨by simpa using inside, rfl⟩
      · exact .inl rfl

end StoredGraph

/-!
## What readers see
-/

namespace Session

variable {name : String} {session later last : Session} {before : Stores} {graph : StoredGraph}
  {call : Call} {id : RecordId} {node : Node} {relationship : Relationship}

/-- Whether the files of a collection hold a graph. -/
def Shows (name : String) (session : Session) (graph : StoredGraph) : Prop :=
  ∃ stores, session.Holds name stores ∧ Represents stores graph

theorem IsFresh.shows_empty (fresh : session.IsFresh name) : session.Shows name .empty :=
  ⟨.empty, fresh.holds_empty, represents_empty⟩

private theorem shows_of_adding {stores : Stores} (holds : later.Holds name stores)
    (adding : Site.Adding graph node stores) :
    ∃ next, graph.MayBecome (.createNode node) next ∧ later.Shows name next := by
  rcases adding with same | added
  · exact ⟨graph, .same _, stores, holds, same⟩
  · exact ⟨_, .node node, stores, holds, added⟩

private theorem shows_of_joining {stores : Stores} (holds : later.Holds name stores)
    (joining : Site.Joining graph relationship stores) :
    ∃ next, graph.MayBecome (.createRelationship relationship) next ∧ later.Shows name next := by
  rcases joining with same | ⟨ends, among, attached⟩
  · exact ⟨graph, .same _, stores, holds, same⟩
  · exact ⟨_, .relationship relationship ends among, stores, holds, attached⟩

/-- Behind a call the files hold the former graph or one that the call makes of it. -/
theorem Shows.leadsTo (shows : session.Shows name graph) (leads : session.LeadsTo name call later) :
    ∃ next, graph.MayBecome call next ∧ later.Shows name next := by
  obtain ⟨before, holds, represents⟩ := shows
  cases leads with
  | whole =>
      obtain ⟨stores, laterHolds, behaves⟩ := holds.step represents call
      generalize (session.step name call).1 = answer at behaves
      cases behaves with
      | createNode ends =>
          rcases ends with ⟨_, -, same, -⟩ | ⟨_, -, -, added, -⟩
          · exact shows_of_adding laterHolds (.inl same)
          · exact shows_of_adding laterHolds (.inr added)
      | createRelationship ends =>
          rcases ends with ⟨_, -, same, -⟩ | ⟨-, joined, -⟩
          · exact shows_of_joining laterHolds (.inl same)
          · exact shows_of_joining laterHolds (.inr ⟨_, List.prefix_refl _, joined⟩)
      | nodeFound | nodeMissing | relationshipFound | relationshipMissing | reopen =>
          exact ⟨graph, .same _, before, laterHolds, represents⟩
  | nodeInterrupted node count =>
      obtain ⟨site, lists, held⟩ := holds
      obtain ⟨stores, laterHeld, beside, passed⟩ :=
        (lists.ensures_createNode represents node).interrupted held count
      have laterHolds := holds_of_beside lists held laterHeld beside
      rcases passed with rfl | passing
      · exact shows_of_adding laterHolds (.inl represents)
      · exact shows_of_adding laterHolds passing
  | relationshipInterrupted relationship count =>
      obtain ⟨site, lists, held⟩ := holds
      obtain ⟨stores, laterHeld, beside, passed⟩ :=
        (lists.ensures_createRelationship represents relationship).interrupted held count
      have laterHolds := holds_of_beside lists held laterHeld beside
      rcases passed with rfl | passing
      · exact shows_of_joining laterHolds (.inl represents)
      · exact shows_of_joining laterHolds passing

theorem Shows.reaches (shows : session.Shows name graph) (reaches : session.Reaches name later) :
    ∃ next, graph.Extends next ∧ later.Shows name next := by
  induction reaches with
  | refl => exact ⟨graph, .refl graph, shows⟩
  | next _ leads ih =>
      obtain ⟨middle, extended, middleShows⟩ := ih
      obtain ⟨next, becomes, nextShows⟩ := middleShows.leadsTo leads
      exact ⟨next, extended.trans becomes.extends, nextShows⟩

/-!
## Look-ups in a graph
-/

theorem Shows.getNode_eq (shows : session.Shows name graph)
    (stored : graph.nodes[id.toNat]? = some node) :
    session.getNode name id = .ok { node with id := some id } := by
  obtain ⟨stores, ⟨site, lists, held⟩, represents⟩ := shows
  exact congrArg Prod.fst ((lists.yields_getNode represents stored).runOn_eq held)

theorem Shows.exists_of_getNode (shows : session.Shows name graph)
    (given : session.getNode name id = .ok node) :
    ∃ stored, graph.nodes[id.toNat]? = some stored ∧ node = { stored with id := some id } := by
  cases there : graph.nodes[id.toNat]? with
  | none =>
      obtain ⟨stores, ⟨site, lists, held⟩, represents⟩ := shows
      obtain ⟨detail, refused⟩ := lists.yields_getNode_none represents there
      have error := congrArg Prod.fst (refused.runOn_eq held)
      cases given.symm.trans error
  | some stored => exact ⟨stored, rfl, Except.ok.inj (given.symm.trans (shows.getNode_eq there))⟩

theorem Shows.getRelationship_eq (shows : session.Shows name graph)
    (stored : graph.relationships[id.toNat]? = some relationship) :
    session.getRelationship name id = .ok { relationship with id := some id } := by
  obtain ⟨stores, ⟨site, lists, held⟩, represents⟩ := shows
  exact congrArg Prod.fst ((lists.yields_getRelationship represents stored).runOn_eq held)

theorem Shows.exists_of_getRelationship (shows : session.Shows name graph)
    (given : session.getRelationship name id = .ok relationship) :
    ∃ stored, graph.relationships[id.toNat]? = some stored ∧
      relationship = { stored with id := some id } := by
  cases there : graph.relationships[id.toNat]? with
  | none =>
      obtain ⟨stores, ⟨site, lists, held⟩, represents⟩ := shows
      obtain ⟨detail, refused⟩ := lists.yields_getRelationship_none represents there
      have error := congrArg Prod.fst (refused.runOn_eq held)
      cases given.symm.trans error
  | some stored =>
      exact ⟨stored, rfl, Except.ok.inj (given.symm.trans (shows.getRelationship_eq there))⟩

/-!
## What readers can rely on
-/

/-- Whether every node and relationship that has a record can be read. -/
structure Readable (name : String) (session : Session) : Prop where
  nodes : ∃ records, session.nodeRecords name = .ok records ∧
    ∀ id : RecordId, id.toNat < records.length → ∃ node, session.getNode name id = .ok node
  relationships : ∃ records, session.relationshipRecords name = .ok records ∧
    ∀ id : RecordId, id.toNat < records.length →
      ∃ relationship, session.getRelationship name id = .ok relationship

/-- Whether all that was stored with nodes and relationships is read again later. -/
structure Preserves (name : String) (session later : Session) : Prop where
  nodes (id : RecordId) (node : Node) : session.getNode name id = .ok node →
    ∃ again, later.getNode name id = .ok again ∧ again.name = node.name ∧
      again.labels = node.labels ∧ again.properties = node.properties
  relationships (id : RecordId) (relationship : Relationship) :
    session.getRelationship name id = .ok relationship →
      later.getRelationship name id = .ok relationship

/-- Whether nodes have the relationships that they had, but for a new one, which two of them may
have in front of the others. -/
def Prepends (name : String) (session : Session) (relationship : Relationship)
    (later : Session) : Prop :=
  ∃ records new, session.relationshipRecords name = .ok records ∧ new.toNat = records.length ∧
    ∀ (id : RecordId) node, session.getNode name id = .ok node →
      ∃ again, later.getNode name id = .ok again ∧
        (again.relationships = node.relationships ∨
          (id = relationship.source ∨ id = relationship.target) ∧
            again.relationships = new :: node.relationships)

theorem Shows.readable (shows : session.Shows name graph) : session.Readable name := by
  have ⟨stores, holds, represents⟩ := shows
  refine ⟨⟨_, holds.nodeRecords_eq, fun id inside => ?_⟩,
    ⟨_, holds.relationshipRecords_eq, fun id inside => ?_⟩⟩
  · rw [represents.nodes] at inside
    exact ⟨_, shows.getNode_eq (List.getElem?_eq_getElem inside)⟩
  · rw [represents.relationships.length_eq] at inside
    exact ⟨_, shows.getRelationship_eq (List.getElem?_eq_getElem inside)⟩

theorem Shows.preserves {next : StoredGraph} (shows : session.Shows name graph)
    (extended : graph.Extends next) (laterShows : later.Shows name next) :
    session.Preserves name later where
  nodes id node given := by
    obtain ⟨stored, there, rfl⟩ := shows.exists_of_getNode given
    obtain ⟨again, thereAgain, same⟩ := extended.nodes id.toNat stored there
    exact ⟨_, laterShows.getNode_eq thereAgain, same⟩
  relationships id relationship given := by
    obtain ⟨stored, there, rfl⟩ := shows.exists_of_getRelationship given
    exact laterShows.getRelationship_eq (getElem?_of_grown extended.relationships there)

theorem Shows.prepends {next : StoredGraph} (shows : session.Shows name graph)
    (becomes : graph.MayBecome (.createRelationship relationship) next)
    (laterShows : later.Shows name next) : session.Prepends name relationship later := by
  have ⟨stores, holds, represents⟩ := shows
  have width := represents.relationships.length_eq
  have number := toNat_ofNat_of_lt (holds.length_lt .relationship)
  refine ⟨_, _, holds.relationshipRecords_eq, number, fun id node given => ?_⟩
  obtain ⟨stored, there, rfl⟩ := shows.exists_of_getNode given
  obtain ⟨again, thereAgain, same⟩ := becomes.relationships_eq there
  rw [← width] at same
  exact ⟨_, laterShows.getNode_eq thereAgain, same⟩

/-- Wherever calls on a collection are interrupted, its nodes and relationships can be read, what was
stored with them does not change, and a relationship that is stored next is put in front of those of
its ends or not yet. -/
theorem readable_of_reaches (fresh : session.IsFresh name)
    (reaches : session.Reaches name later) :
    later.Readable name ∧ (∀ last, later.Reaches name last → later.Preserves name last) ∧
      ∀ relationship last, later.LeadsTo name (.createRelationship relationship) last →
        later.Prepends name relationship last := by
  obtain ⟨graph, -, shows⟩ := fresh.shows_empty.reaches reaches
  refine ⟨shows.readable, fun last onward => ?_, fun relationship last leads => ?_⟩
  · obtain ⟨next, extended, lastShows⟩ := shows.reaches onward
    exact shows.preserves extended lastShows
  · obtain ⟨next, becomes, lastShows⟩ := shows.leadsTo leads
    exact shows.prepends becomes lastShows

/-- A relationship whose record is there, but at which no node points yet. -/
theorem readable_halfway :
    ∃ later, firstCollection.IsFresh "c" ∧ firstCollection.Reaches "c" later ∧
      later.getRelationship "c" 0 = .ok { Relationship.between 0 0 "X" with id := some 0 } ∧
      later.getNode "c" 0 = .ok { Node.named "a" with id := some 0 } ∧ later.Readable "c" ∧
      (∀ last, later.Reaches "c" last → later.Preserves "c" last) ∧
      ∀ relationship last, later.LeadsTo "c" (.createRelationship relationship) last →
        later.Prepends "c" relationship last := by
  have stored : firstCollection.LeadsTo "c" (.createNode (.named "a")) _ := .whole _
  have reaches := (Reaches.refl.next stored).next (.relationshipInterrupted (.between 0 0 "X") 2)
  refine ⟨_, isFresh_firstCollection, reaches, ?_, ?_,
    readable_of_reaches isFresh_firstCollection reaches⟩
  · exact eq_ok_of_toOption (by decide +kernel)
  · exact eq_ok_of_toOption (by decide +kernel)

end Session

end GraphStore
