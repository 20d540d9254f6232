import GraphStore.Proofs.Engine.Creation
import GraphStore.Proofs.Engine.Relationships

/-!
# Sessions

Sequences of calls on a collection that was just made, with re-openings of the database between
them. Main statement: each call answers as the records in the files of the collection say, and
leaves records of which it is known how they came from the former ones.
-/

set_option autoImplicit false

namespace GraphStore

/-- A call on a collection, or a re-opening of its database. -/
inductive Call where
  | createNode (node : Node)
  | createRelationship (relationship : Relationship)
  | getNode (id : RecordId)
  | getRelationship (id : RecordId)
  | reopen (options : EngineOptions) (now : Int64)
deriving Repr, DecidableEq

/-- What a call gives. -/
inductive Answer where
  | node (outcome : Except Error Node)
  | relationship (outcome : Except Error Relationship)
  | reopened (outcome : Except Error Unit)
deriving Repr, DecidableEq

/-- An open database and the file system on which it works. -/
structure Session where
  engine : Engine
  system : FileSystem

namespace Session

variable {name : String} {session : Session}

/-- Carries out a call on a collection. A database that cannot be opened again stays as it is. -/
def step (name : String) (session : Session) : Call → Answer × Session
  | .createNode node =>
      let run := (session.engine.createNode name node).runOn session.system
      (.node (run.1.map Prod.fst), { session with system := run.2 })
  | .createRelationship relationship =>
      let run := (session.engine.createRelationship name relationship).runOn session.system
      (.relationship run.1, { session with system := run.2 })
  | .getNode id =>
      let run := (session.engine.getNode name id).runOn session.system
      (.node run.1, { session with system := run.2 })
  | .getRelationship id =>
      let run := (session.engine.getRelationship name id).runOn session.system
      (.relationship run.1, { session with system := run.2 })
  | .reopen options now =>
      match (Engine.openAt session.engine.root options now).runOn session.system with
      | (.ok engine, system) => (.reopened (.ok ()), ⟨engine, system⟩)
      | (.error error, system) => (.reopened (.error error), { session with system })

/-- Carries out calls one after another. -/
def run (name : String) (session : Session) : List Call → List Answer × Session
  | [] => ([], session)
  | call :: rest =>
      let first := session.step name call
      let onward := first.2.run name rest
      (first.1 :: onward.1, onward.2)

/-- The records of the nodes of a collection, in the order of their numbers. -/
def nodeRecords (name : String) (session : Session) : Except Error (List NodeRecord) :=
  (Action.runOn (do
    let file ← (← Action.of (session.engine.collection name)).nodes
    file.readAll) session.system).1

/-- The records of the relationships of a collection, in the order of their numbers. -/
def relationshipRecords (name : String) (session : Session) :
    Except Error (List RelationshipRecord) :=
  (Action.runOn (do
    let file ← (← Action.of (session.engine.collection name)).relationships
    file.readAll) session.system).1

/-- Whether a session begins with a collection that was just made. -/
def IsFresh (name : String) (session : Session) : Prop :=
  ∃ engine order now system, Engine.IsOpen engine ∧ Collection.IsMakingOrder order ∧
    (engine.createCollectionIn order now name).run system =
      ((.ok (), session.engine), session.system)

/-- Whether a session lists a collection whose files hold some records. -/
def Holds (name : String) (session : Session) (stores : Stores) : Prop :=
  ∃ site : Site, session.engine.Lists name site session.system ∧ site.Holds stores session.system

theorem IsFresh.holds_empty (fresh : session.IsFresh name) : session.Holds name .empty := by
  obtain ⟨engine, order, now, system, isOpen, isOrder, made⟩ := fresh
  exact Engine.lists_of_createCollectionIn isOpen.knowsCatalog isOrder made

end Session

namespace Engine

variable {engine : Engine} {name : String} {site : Site} {system : FileSystem}
  {stores before : Stores} {graph : StoredGraph}

/-!
## Work on a listed collection
-/

theorem Lists.yields_collection (lists : engine.Lists name site system) :
    site.Yields (Action.of (engine.collection name)) stores (.ok site.collection) :=
  .of lists.collection_eq

theorem Lists.ensures_createNode (lists : engine.Lists name site system)
    (represents : Represents before graph) (node : Node) :
    site.Ensures (engine.createNode name node) before (Site.Adding graph node)
      (Site.EndsAdding graph node before) :=
  lists.yields_collection.bind_ensures (Site.ensures_createNode represents node)

theorem Lists.ensures_createRelationship (lists : engine.Lists name site system)
    (represents : Represents before graph) (relationship : Relationship) :
    site.Ensures (engine.createRelationship name relationship) before
      (Site.Joining graph relationship) (Site.EndsJoining graph relationship before) :=
  lists.yields_collection.bind_ensures (Site.ensures_createRelationship represents relationship)

theorem Lists.yields_getNode (lists : engine.Lists name site system)
    (represents : Represents stores graph) {id : RecordId} {node : Node}
    (stored : graph.nodes[id.toNat]? = some node) :
    site.Yields (engine.getNode name id) stores (.ok { node with id := some id }) :=
  lists.yields_collection.bind (Site.yields_getNode represents stored)

theorem Lists.yields_getNode_none (lists : engine.Lists name site system)
    (represents : Represents stores graph) {id : RecordId}
    (missing : graph.nodes[id.toNat]? = none) :
    ∃ detail, site.Yields (engine.getNode name id) stores (.error (.notFound detail)) := by
  obtain ⟨detail, refused⟩ := Site.yields_getNode_none represents missing
  exact ⟨detail, lists.yields_collection.bind refused⟩

theorem Lists.yields_getRelationship (lists : engine.Lists name site system)
    (represents : Represents stores graph) {id : RecordId} {relationship : Relationship}
    (stored : graph.relationships[id.toNat]? = some relationship) :
    site.Yields (engine.getRelationship name id) stores
      (.ok { relationship with id := some id }) :=
  lists.yields_collection.bind (Site.yields_getRelationship represents stored)

theorem Lists.yields_getRelationship_none (lists : engine.Lists name site system)
    (represents : Represents stores graph) {id : RecordId}
    (missing : graph.relationships[id.toNat]? = none) :
    ∃ detail, site.Yields (engine.getRelationship name id) stores
      (.error (.notFound detail)) := by
  obtain ⟨detail, refused⟩ := Site.yields_getRelationship_none represents missing
  exact ⟨detail, lists.yields_collection.bind refused⟩

end Engine

/-!
## Calls
-/

/-- How a call answers and which records it leaves, where the records before are those of a
graph. -/
inductive Behaves (graph : StoredGraph) (before : Stores) : Call → Answer → Stores → Prop where
  | createNode {node : Node} {outcome : Except Error (Node × NodeRecord)} {stores : Stores}
      (ends : Site.EndsAdding graph node before outcome stores) :
      Behaves graph before (.createNode node) (.node (outcome.map Prod.fst)) stores
  | createRelationship {relationship : Relationship} {outcome : Except Error Relationship}
      {stores : Stores} (ends : Site.EndsJoining graph relationship before outcome stores) :
      Behaves graph before (.createRelationship relationship) (.relationship outcome) stores
  | nodeFound {id : RecordId} {node : Node} (stored : graph.nodes[id.toNat]? = some node) :
      Behaves graph before (.getNode id) (.node (.ok { node with id := some id })) before
  | nodeMissing {id : RecordId} {detail : String} (missing : graph.nodes[id.toNat]? = none) :
      Behaves graph before (.getNode id) (.node (.error (.notFound detail))) before
  | relationshipFound {id : RecordId} {relationship : Relationship}
      (stored : graph.relationships[id.toNat]? = some relationship) :
      Behaves graph before (.getRelationship id)
        (.relationship (.ok { relationship with id := some id })) before
  | relationshipMissing {id : RecordId} {detail : String}
      (missing : graph.relationships[id.toNat]? = none) :
      Behaves graph before (.getRelationship id) (.relationship (.error (.notFound detail))) before
  | reopen {options : EngineOptions} {now : Int64} :
      Behaves graph before (.reopen options now) (.reopened (.ok ())) before

theorem Behaves.exists_represents {graph : StoredGraph} {before stores : Stores} {call : Call}
    {answer : Answer} (behaves : Behaves graph before call answer stores)
    (represents : Represents before graph) : ∃ later, Represents stores later := by
  cases behaves with
  | createNode ends =>
      rcases ends with ⟨_, -, same, -⟩ | ⟨_, -, -, added, -⟩
      · exact ⟨_, same⟩
      · exact ⟨_, added⟩
  | createRelationship ends =>
      rcases ends with ⟨_, -, same, -⟩ | ⟨-, joined, -⟩
      · exact ⟨_, same⟩
      · exact ⟨_, joined⟩
  | nodeFound | nodeMissing | relationshipFound | relationshipMissing | reopen =>
      exact ⟨graph, represents⟩

namespace Session

variable {name : String} {session : Session} {before : Stores} {graph : StoredGraph}

theorem holds_of_beside {site : Site} {stores : Stores} {system : FileSystem}
    (lists : session.engine.Lists name site session.system)
    (held : site.Holds before session.system) (laterHeld : site.Holds stores system)
    (beside : site.Beside session.system system) :
    Session.Holds name { session with system } stores :=
  ⟨site, lists.beside held beside, laterHeld⟩

theorem Holds.step (holds : session.Holds name before) (represents : Represents before graph)
    (call : Call) :
    ∃ stores, Holds name (session.step name call).2 stores ∧
      Behaves graph before call (session.step name call).1 stores := by
  obtain ⟨site, lists, held⟩ := holds
  cases call with
  | createNode node =>
      obtain ⟨stores, laterHeld, beside, ends⟩ :=
        (lists.ensures_createNode represents node).runOn held
      exact ⟨stores, holds_of_beside lists held laterHeld beside, .createNode ends⟩
  | createRelationship relationship =>
      obtain ⟨stores, laterHeld, beside, ends⟩ :=
        (lists.ensures_createRelationship represents relationship).runOn held
      exact ⟨stores, holds_of_beside lists held laterHeld beside, .createRelationship ends⟩
  | getNode id =>
      cases stored : graph.nodes[id.toNat]? with
      | none =>
          obtain ⟨detail, refused⟩ := lists.yields_getNode_none represents stored
          unfold Session.step
          simp only [refused.runOn_eq held]
          exact ⟨before, ⟨site, lists, held⟩, .nodeMissing stored⟩
      | some node =>
          unfold Session.step
          simp only [(lists.yields_getNode represents stored).runOn_eq held]
          exact ⟨before, ⟨site, lists, held⟩, .nodeFound stored⟩
  | getRelationship id =>
      cases stored : graph.relationships[id.toNat]? with
      | none =>
          obtain ⟨detail, refused⟩ := lists.yields_getRelationship_none represents stored
          unfold Session.step
          simp only [refused.runOn_eq held]
          exact ⟨before, ⟨site, lists, held⟩, .relationshipMissing stored⟩
      | some relationship =>
          unfold Session.step
          simp only [(lists.yields_getRelationship represents stored).runOn_eq held]
          exact ⟨before, ⟨site, lists, held⟩, .relationshipFound stored⟩
  | reopen options now =>
      obtain ⟨again, opened, listsAgain⟩ := Engine.openAt_of_lists lists options now
      unfold Session.step
      simp only [opened]
      exact ⟨before, ⟨site, listsAgain, held⟩, .reopen⟩

theorem Holds.nodeRecords_eq (holds : session.Holds name before) :
    session.nodeRecords name = .ok (before .node) := by
  obtain ⟨site, lists, held⟩ := holds
  have read : site.Yields (do
      let file ← (← Action.of (session.engine.collection name)).nodes
      file.readAll) before (.ok (before .node)) :=
    lists.yields_collection.bind ((Site.yields_openAs .node).bind (Site.yields_readAll .node))
  exact congrArg Prod.fst (read.runOn_eq held)

theorem Holds.relationshipRecords_eq (holds : session.Holds name before) :
    session.relationshipRecords name = .ok (before .relationship) := by
  obtain ⟨site, lists, held⟩ := holds
  have read : site.Yields (do
      let file ← (← Action.of (session.engine.collection name)).relationships
      file.readAll) before (.ok (before .relationship)) :=
    lists.yields_collection.bind
      ((Site.yields_openAs .relationship).bind (Site.yields_readAll .relationship))
  exact congrArg Prod.fst (read.runOn_eq held)

theorem Holds.length_lt (holds : session.Holds name before) (kind : StoreKind) :
    (before kind).length < RecordFile.idLimit := by
  obtain ⟨site, -, held⟩ := holds
  exact (held kind).short

/-!
## A collection to begin with
-/

/-- A database that was made in an empty file system. -/
def firstDatabase : Session where
  engine := ⟨["db"], ⟨.little, true⟩, .fresh ["db", Catalog.fileName] 0⟩
  system := ((Engine.openAt ["db"] ⟨.little, true⟩ 0).runOn ⟨[]⟩).2

/-- The database with one collection, whose name is "c". -/
def firstCollection : Session where
  engine := ((firstDatabase.engine.createCollection 0 "c").run firstDatabase.system).1.2
  system := ((firstDatabase.engine.createCollection 0 "c").run firstDatabase.system).2

theorem isFresh_firstCollection : firstCollection.IsFresh "c" := by
  have opened : ((Engine.openAt ["db"] ⟨.little, true⟩ 0).runOn ⟨[]⟩).1.toOption =
      some firstDatabase.engine := by decide +kernel
  have made : ((firstDatabase.engine.createCollection 0 "c").run firstDatabase.system).1.1.toOption =
      some () := by decide +kernel
  refine ⟨firstDatabase.engine, _, 0, _, .opened ["db"] ⟨.little, true⟩ 0 ⟨[]⟩ ?_,
    Collection.MakingOrder.oneByOne.isOrder, Prod.ext (Prod.ext ?_ rfl) rfl⟩
  · exact eq_ok_of_toOption opened
  · exact eq_ok_of_toOption made

end Session

end GraphStore
