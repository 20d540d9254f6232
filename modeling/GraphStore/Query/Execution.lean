import GraphStore.Engine.Nodes
import GraphStore.Query.Parser
import GraphStore.Response

/-!
# Carrying out scripts

The statements of a script are read out of its tree as nodes, and the nodes are stored one after the
other up to the first failure.
-/

set_option autoImplicit false

namespace GraphStore.Query

open Text

def propertyOf (tree : TokenTree) (place : Nat) : Except Error Property :=
  match (tree.children place).filterMap tree.node? with
  | key :: value :: _ =>
      match value.kind with
      | .terminal .string => .ok ⟨key.content, .text value.content⟩
      | .terminal .number =>
          match (parseInt? value.content).bind int64? with
          | some number => .ok ⟨key.content, .int number⟩
          | none =>
              .error (.syntaxError value.position s!"Number {value.content} is out of range")
      | other => .error (.internal s!"unexpected property value {other.describe}")
  | _ => .error (.internal "property node without key and value")

def contentOf (tree : TokenTree) (place : Nat) : String :=
  ((tree.node? place).map TreeNode.content).getD ""

def addPart (tree : TokenTree) (node : Node) (place : Nat) : Except Error Node :=
  match (tree.node? place).map TreeNode.kind with
  | some (.terminal .string) => .ok { node with name := some (contentOf tree place) }
  | some (.rule .labelArray) =>
      .ok { node with labels := (tree.children place).map (contentOf tree) }
  | some (.rule .propertyList) => do
      let properties ← (tree.children place).mapM (propertyOf tree)
      return { node with properties := node.properties ++ properties }
  | some other => .error (.internal s!"unexpected node definition part {other.describe}")
  | none => .error (.internal "tree node without place")

def nodeOf (tree : TokenTree) (definition : Nat) : Except Error Node :=
  (tree.children definition).foldlM (addPart tree)
    { id := none, name := none, labels := [], properties := [], relationships := [] }

def nodesOf (tree : TokenTree) (statement : Nat) : Except Error (List Node) :=
  match (tree.node? statement).map TreeNode.kind with
  | some (.rule .createStatement) =>
      let isDefinition (place : Nat) : Bool :=
        (tree.node? place).any fun node => node.kind == .rule .nodeDefinition
      match (tree.children statement).find? isDefinition with
      | some definition => do return [← nodeOf tree definition]
      | none => .error (.internal s!"TreeIndex({statement}) node has no NodeDefinition")
  | some (.rule .emptyStatement) => .ok []
  | some other => .error (.internal s!"unexpected statement node {other.describe}")
  | none => .error (.internal "tree node without place")

def scriptNodes (tree : TokenTree) : Except Error (List Node) :=
  (tree.statements.mapM (nodesOf tree)).map List.flatten

/-- Stores nodes up to the first failure. Gives the stored nodes and the failure, if there was
one. -/
def storeAll (engine : Engine) (collection : String) :
    List Node → Disk (List Node × Option Error)
  | [] => return ([], none)
  | node :: rest => do
      match ← (engine.createNode collection node).outcome with
      | .error error => return ([], some error)
      | .ok (stored, _) =>
          let (later, failure) ← storeAll engine collection rest
          return (stored :: later, failure)

/-- The response to a script that stored some nodes and then failed or not. -/
def outcome (now : Timestamp) (stored : List Node) : Option Error → Response
  | some error =>
      let response := Response.ofError now error
      if stored.isEmpty then response
      else
        { response with
          message := s!"{response.message} (after creating {stored.length} node(s))" }
  | none =>
      match stored with
      | [] => .ofSuccess now "No statements to execute" none
      | [node] => .ofSuccess now "Created 1 node" (some (.node node))
      | nodes =>
          .ofSuccess now s!"Created {nodes.length} nodes"
            (some (.graph (nodes.foldl Graph.withNode .empty)))

/-- Carries out a script in a collection. Every failure is told in the response. -/
def execute (engine : Engine) (collection : String) (separator : Separator) (now : Timestamp)
    (text : String) : Disk Response := do
  if isAllBlank text then return .ofFailure now "EMPTY_QUERY" "Query was empty"
  match parse separator text >>= scriptNodes with
  | .error error => return .ofError now error
  | .ok nodes =>
      let (stored, failure) ← storeAll engine collection nodes
      return outcome now stored failure

end GraphStore.Query
