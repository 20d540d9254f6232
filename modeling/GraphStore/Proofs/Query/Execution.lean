import GraphStore.Proofs.Engine.Refinement
import GraphStore.Proofs.Graph.Numbered
import GraphStore.Proofs.Query.Nodes
import GraphStore.Query.Execution

/-!
# Scripts as calls

Main statement: carrying out a script comes to the same as one call for each node that it creates,
in the order of the text and up to the first call that is refused, and the response tells how this
ended. A text that is refused, or holds a number that is, changes nothing.
-/

set_option autoImplicit false

namespace GraphStore

/-- A node as it is answered when it is stored under a number. -/
def Node.numbered (id : RecordId) (node : Node) : Node :=
  { node with id := some id, relationships := [] }

/-!
## Calls that store nodes
-/

namespace StoredGraph

variable {graph later : StoredGraph} {nodes stored : List Node}

/-- Nodes that are stored one after the other get the next numbers. -/
theorem PermitsAll.of_stored
    (permitted : PermitsAll graph (nodes.map .createNode) (stored.map (.node ∘ .ok)) later) :
    later = { graph with nodes := graph.nodes ++ nodes } ∧
      ∃ ids : List RecordId, ids.map UInt32.toNat = List.range' graph.nodes.length nodes.length ∧
        stored = ids.zipWith Node.numbered nodes := by
  induction nodes generalizing graph stored with
  | nil =>
      cases stored with
      | nil =>
          cases permitted
          exact ⟨by rw [List.append_nil], [], rfl, rfl⟩
      | cons => cases permitted
  | cons node nodes ih =>
      cases stored with
      | nil => cases permitted
      | cons first stored =>
          rw [List.map_cons, List.map_cons] at permitted
          cases permitted with
          | cons here rest =>
              cases here with
              | nodeStored _ id next =>
                  obtain ⟨same, ids, counted, rfl⟩ := ih rest
                  refine ⟨by rw [same, List.append_assoc]; rfl, id :: ids, ?_, rfl⟩
                  rw [List.map_cons, counted, next, List.length_cons, List.range'_succ,
                    List.length_append]
                  rfl

end StoredGraph

namespace Session

variable {name : String} {session middle later : Session} {graph : StoredGraph}

theorem Reflects.getNode (reflects : session.Reflects name graph) {id : RecordId} {node : Node}
    (stored : graph.nodes[id.toNat]? = some node) :
    (session.step name (.getNode id)).1 =
      .node (.ok { node with id := some id, relationships := graph.incident id }) := by
  obtain ⟨later, permitted, -⟩ := reflects.step (.getNode id)
  generalize (session.step name (.getNode id)).1 = answer at permitted ⊢
  cases permitted with
  | nodeFound _ other found =>
      obtain rfl := Option.some.inj (found.symm.trans stored)
      rfl
  | nodeMissing _ _ missing =>
      rw [missing] at stored
      cases stored

end Session

namespace Query

open Text

variable {name : String} {session before middle later : Session} {nodes rest : List Node}
  {node stored : Node} {result : List Node × Option Error}

/-- How the nodes of a script are stored: with one call for each, up to the first one that is
refused. -/
inductive EndsStoring (name : String) (session : Session) (nodes : List Node) :
    List Node × Option Error → Session → Prop
  | all {stored : List Node} {later : Session}
      (ran : session.run name (nodes.map .createNode) = (stored.map (.node ∘ .ok), later)) :
      EndsStoring name session nodes (stored, none) later
  | stopped (front : List Node) {rest stored : List Node} {node : Node} {error : Error}
      {middle later : Session} (split : nodes = front ++ node :: rest)
      (ran : session.run name (front.map .createNode) = (stored.map (.node ∘ .ok), middle))
      (refused : middle.step name (.createNode node) = (.node (.error error), later)) :
      EndsStoring name session nodes (stored, some error) later

theorem EndsStoring.cons
    (first : session.step name (.createNode node) = (.node (.ok stored), middle))
    (onward : EndsStoring name middle rest result later) :
    EndsStoring name session (node :: rest) (stored :: result.1, result.2) later := by
  cases onward with
  | all ran =>
      refine .all ?_
      rw [List.map_cons, Session.run, first, ran]
      rfl
  | stopped front split ran refused =>
      refine .stopped (node :: front) (congrArg (node :: ·) split) ?_ refused
      rw [List.map_cons, Session.run, first, ran]
      rfl

theorem endsStoring_storeAll (session : Session) (nodes : List Node) :
    EndsStoring name session nodes
      ((storeAll session.engine name nodes).run session.system).1
      { session with system := ((storeAll session.engine name nodes).run session.system).2 } := by
  induction nodes generalizing session with
  | nil => exact .all rfl
  | cons node rest ih =>
      have called : session.step name (.createNode node) =
          (.node (((session.engine.createNode name node).runOn session.system).1.map Prod.fst),
            { session with
              system := ((session.engine.createNode name node).runOn session.system).2 }) := rfl
      rw [storeAll, Disk.run_bind]
      rw [Action.runOn] at called
      generalize (session.engine.createNode name node).outcome.run session.system = first at called ⊢
      obtain ⟨outcome, system⟩ := first
      cases outcome with
      | error error => exact .stopped [] rfl rfl called
      | ok made =>
          dsimp only
          rw [Disk.run_bind]
          exact (ih { session with system }).cons called

/-!
## Responses
-/

/-- What a response shows of nodes that were stored under some numbers. -/
inductive Shows (ids : List RecordId) (stored : List Node) : Option Payload → Prop
  | nothing (empty : stored = []) : Shows ids stored none
  | node {node : Node} (only : stored = [node]) : Shows ids stored (some (.node node))
  | graph {graph : Graph} (several : 2 ≤ stored.length)
      (nodes : graph.nodes.entries = ids.zip stored)
      (relationships : graph.relationships = .empty) : Shows ids stored (some (.graph graph))

/-- How a script that creates some nodes ends on a collection that holds a graph. -/
inductive EndsScript (name : String) (before : Session) (graph : StoredGraph) (nodes : List Node) :
    Response → Session → Prop
  | stored {ids : List RecordId} {response : Response} {later : Session}
      (ran : before.run name (nodes.map .createNode) =
        ((ids.zipWith Node.numbered nodes).map (.node ∘ .ok), later))
      (distinct : ids.Nodup) (width : ids.length = nodes.length)
      (reflects : later.Reflects name { graph with nodes := graph.nodes ++ nodes })
      (read : ∀ entry ∈ ids.zip nodes, (later.step name (.getNode entry.1)).1 =
        .node (.ok (entry.2.numbered entry.1)))
      (success : response.success = true)
      (shows : Shows ids (ids.zipWith Node.numbered nodes) response.result) :
      EndsScript name before graph nodes response later
  | stopped {front rest stored : List Node} {node : Node} {error : Error} {response : Response}
      {middle later : Session} (split : nodes = front ++ node :: rest)
      (ran : before.run name (front.map .createNode) = (stored.map (.node ∘ .ok), middle))
      (refused : middle.step name (.createNode node) = (.node (.error error), later))
      (reflects : later.Reflects name { graph with nodes := graph.nodes ++ front })
      (failure : response.success = false) (code : response.code = some error.code) :
      EndsScript name before graph nodes response later

section

variable {ids : List RecordId} {first : Nat} {id : RecordId}

theorem getElem?_of_counted (counted : ids.map UInt32.toNat = List.range' first nodes.length)
    {place : Nat} (found : ids[place]? = some id) : id.toNat = first + place := by
  have number : (ids.map UInt32.toNat)[place]? = some id.toNat := by
    rw [List.getElem?_map, found]
    rfl
  rw [counted, List.getElem?_eq_some_iff] at number
  obtain ⟨_, same⟩ := number
  rw [← same, List.getElem_range', Nat.one_mul]

theorem pairwise_of_counted (counted : ids.map UInt32.toNat = List.range' first nodes.length) :
    ids.Pairwise fun former later => former < later := by
  have ascending : (ids.map UInt32.toNat).Pairwise (· < ·) := counted ▸ List.pairwise_lt_range'
  exact (List.pairwise_map.mp ascending).imp UInt32.lt_iff_toNat_lt.mpr

theorem success_outcome (now : Timestamp) (stored : List Node) :
    (outcome now stored none).success = true := by
  match stored with
  | [] | [_] | _ :: _ :: _ => rfl

theorem failure_outcome (now : Timestamp) (stored : List Node) (error : Error) :
    (outcome now stored (some error)).success = false ∧
      (outcome now stored (some error)).code = some error.code := by
  match stored with
  | [] | _ :: _ => exact ⟨rfl, rfl⟩

theorem shows_outcome (now : Timestamp) (width : ids.length = nodes.length)
    (ascending : ids.Pairwise fun former later => former < later) :
    Shows ids (ids.zipWith Node.numbered nodes)
      (outcome now (ids.zipWith Node.numbered nodes) none).result := by
  have numbered : ∀ entry ∈ ids.zip (ids.zipWith Node.numbered nodes),
      entry.2.id = some entry.1 := by
    intro entry member
    obtain ⟨place, found⟩ := List.mem_iff_getElem?.mp member
    obtain ⟨isId, isNode⟩ := List.getElem?_zip_eq_some.mp found
    obtain ⟨id, node, there, -, same⟩ := List.getElem?_zipWith_eq_some.mp isNode
    obtain rfl := Option.some.inj (isId.symm.trans there)
    rw [← same]
    rfl
  have same : ids.length = (ids.zipWith Node.numbered nodes).length := by
    rw [List.length_zipWith, width, Nat.min_self]
  generalize ids.zipWith Node.numbered nodes = stored at numbered same ⊢
  match stored with
  | [] => exact .nothing rfl
  | [node] => exact .node rfl
  | first :: second :: rest =>
      -- As the numbers go up, no node takes the place of another one.
      have inOrder : (ids.zip (first :: second :: rest)).Pairwise fun former later =>
          former.1 < later.1 := by
        rwa [← List.pairwise_map, List.map_fst_zip (Nat.le_of_eq same)]
      have entries := Graph.foldl_withNode .empty numbered inOrder
      rw [List.map_snd_zip (Nat.le_of_eq same.symm)] at entries
      exact .graph (Nat.le_add_left _ _) entries.1 entries.2

end

theorem EndsStoring.endsScript {graph : StoredGraph} (ends : EndsStoring name before nodes result later)
    (reflects : before.Reflects name graph) (now : Timestamp) :
    EndsScript name before graph nodes (outcome now result.1 result.2) later := by
  cases ends with
  | all ran =>
      obtain ⟨_, permitted, last⟩ := reflects.run (nodes.map .createNode)
      rw [ran] at permitted last
      obtain ⟨rfl, ids, counted, rfl⟩ := permitted.of_stored
      have width : ids.length = nodes.length := by
        have lengths := congrArg List.length counted
        rwa [List.length_map, List.length_range'] at lengths
      have ascending := pairwise_of_counted counted
      refine .stored ran (ascending.imp UInt32.ne_of_lt) width last ?_ (success_outcome now _)
        (shows_outcome now width ascending)
      intro entry member
      obtain ⟨place, found⟩ := List.mem_iff_getElem?.mp member
      obtain ⟨isId, isNode⟩ := List.getElem?_zip_eq_some.mp found
      have number := getElem?_of_counted counted isId
      have there : (graph.nodes ++ nodes)[entry.1.toNat]? = some entry.2 := by
        rw [number, List.getElem?_append_right (Nat.le_add_right _ _), Nat.add_sub_cancel_left,
          isNode]
      -- The relationships are those from before, which end at nodes with smaller numbers.
      have alone : graph.incident entry.1 = [] :=
        StoredGraph.incident_eq_nil reflects.1 (number ▸ Nat.le_add_right _ _)
      rw [last.getNode there]
      exact congrArg (fun known => Answer.node (.ok { entry.2 with
        id := some entry.1, relationships := known })) alone
  | @stopped front _ stored node error _ _ split ran refused =>
      obtain ⟨_, permitted, middleReflects⟩ := reflects.run (front.map .createNode)
      rw [ran] at permitted middleReflects
      obtain ⟨rfl, -⟩ := permitted.of_stored
      -- Records that the refused call may have left behind are no part of the graph.
      obtain ⟨_, denied, last⟩ := middleReflects.step (.createNode node)
      rw [refused] at denied last
      cases denied
      obtain ⟨failure, code⟩ := failure_outcome now stored error
      exact .stopped split ran refused last failure code

/-!
## Texts
-/

section

variable {separator : Separator} {now : Timestamp} {text : String} {engine : Engine}
  {system : FileSystem}

theorem execute_of_error (filled : isAllBlank text = false) {error : Error}
    (refused : parse separator text >>= scriptNodes = .error error) :
    (execute engine name separator now text).run system = (.ofError now error, system) := by
  simp only [execute, filled, refused]
  rfl

theorem execute_of_ok (filled : isAllBlank text = false)
    (given : parse separator text >>= scriptNodes = .ok nodes) :
    (execute engine name separator now text).run system =
      (outcome now ((storeAll engine name nodes).run system).1.1
        ((storeAll engine name nodes).run system).1.2,
        ((storeAll engine name nodes).run system).2) := by
  simp only [execute, filled, given]
  exact Disk.run_bind _ _ _

end

end Query

end GraphStore
