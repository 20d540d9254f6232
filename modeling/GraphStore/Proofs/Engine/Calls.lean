import GraphStore.Engine.Relationships
import GraphStore.Proofs.Collection.Making
import GraphStore.Query.Execution

/-!
# Calls on an open engine

The calls that an open database takes, as values, with what each of them gives.
-/

set_option autoImplicit false

namespace GraphStore

/-- What may be different each time a call is made: the options with which an engine is opened, and
the clock. -/
structure Occasion where
  options : EngineOptions
  now : Int64
  time : Timestamp
deriving Repr, DecidableEq

/-- A call on an open engine. The files of a new collection are made in some order. -/
inductive EngineCall where
  | collections
  | createCollection (order : Collection.MakingOrder) (name : String)
  | deleteCollection (name : String)
  | createNode (collection : String) (node : Node)
  | getNode (collection : String) (id : RecordId)
  | createRelationship (collection : String) (relationship : Relationship)
  | getRelationship (collection : String) (id : RecordId)
  | execute (collection : String) (separator : Query.Separator) (text : String)

/-- What a call gives. -/
inductive EngineAnswer where
  | collections (names : List String)
  | done (outcome : Except Error Unit)
  | stored (outcome : Except Error (Node × NodeRecord))
  | node (outcome : Except Error Node)
  | relationship (outcome : Except Error Relationship)
  | response (response : Response)
  /-- There is no such engine. -/
  | none
deriving Repr, DecidableEq

/-- An answer with another time in its response, if it has one. -/
def EngineAnswer.stamped (time : Timestamp) : EngineAnswer → EngineAnswer
  | response answer => .response { answer with timestamp := time }
  | answer => answer

namespace EngineCall

/-- Carries out a call. Gives the answer and the engine behind it. -/
def carryOut (occasion : Occasion) (engine : Engine) : EngineCall → Disk (EngineAnswer × Engine)
  | collections => return (.collections engine.collections, engine)
  | createCollection order name => do
      let (outcome, later) ← engine.createCollectionIn order.steps occasion.now name
      return (.done outcome, later)
  | deleteCollection name => do
      let (outcome, later) ← engine.deleteCollection occasion.now name
      return (.done outcome, later)
  | createNode collection node => do
      return (.stored (← (engine.createNode collection node).outcome), engine)
  | getNode collection id => do
      return (.node (← (engine.getNode collection id).outcome), engine)
  | createRelationship collection relationship => do
      return (.relationship (← (engine.createRelationship collection relationship).outcome), engine)
  | getRelationship collection id => do
      return (.relationship (← (engine.getRelationship collection id).outcome), engine)
  | execute collection separator text => do
      return (.response (← Query.execute engine collection separator occasion.time text), engine)

end EngineCall

end GraphStore
