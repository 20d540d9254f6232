import GraphStore.Error
import GraphStore.Graph.Basic
import GraphStore.Time.Timestamp

/-!
# Responses

The answer to a query, as it is sent over the wire: success with what was made, or the code, the
message and, for a fault in the text, its place.
-/

set_option autoImplicit false

namespace GraphStore

/-- What a successful query made. -/
inductive Payload where
  | node (node : Node)
  | relationship (relationship : Relationship)
  | graph (graph : Graph)
deriving Repr, DecidableEq

/-- The answer to a query. -/
structure Response where
  success : Bool
  message : String
  result : Option Payload
  position : Option Position
  code : Option String
  timestamp : Timestamp
deriving Repr, DecidableEq

namespace Response

def ofSuccess (now : Timestamp) (message : String) (result : Option Payload) : Response :=
  { success := true, message, result, position := none, code := none, timestamp := now }

def ofFailure (now : Timestamp) (code message : String) : Response :=
  { success := false, message, result := none, position := none, code := some code
    timestamp := now }

/-- The answer to a query that failed with an error. -/
def ofError (now : Timestamp) (error : Error) : Response :=
  { ofFailure now error.code error.message with position := error.position? }

end Response

/-!
## Exchange
-/

namespace Position

def toJson (position : Position) : Json :=
  .ofMembers [("line", .ofNat position.line), ("column", .ofNat position.column)]

/-- Reads the place of a fault or of a token. -/
def ofJson? (json : Json) : Option Position :=
  match json.fields? ["line", "column"] with
  | some [some line, some column] => do
      return {
        line := ← line.natBelow? 0x10000000000000000
        column := ← column.natBelow? 0x10000000000000000 }
  | _ => none

end Position

namespace Payload

def toJson : Payload → Json
  | .node value => .ofMembers [("type", .ofString "node"), ("value", value.toJson)]
  | .relationship value => .ofMembers [("type", .ofString "relationship"), ("value", value.toJson)]
  | .graph value => .ofMembers [("type", .ofString "graph"), ("value", value.toJson)]

def ofTyped? (type : String) (value : Json) : Option Payload :=
  match type with
  | "node" => (Node.ofJson? value).map node
  | "relationship" => (Relationship.ofJson? value).map relationship
  | "graph" => (Graph.ofJson? value).map graph
  | _ => none

/-- Whether a document names the type before it gives the value. -/
def typeComesFirst : Json → Bool
  | .object members =>
      (members.filterMap fun member => member.1.value?).find? (fun name =>
        name == "type" || name == "value") == some "type"
  | _ => true

def isFilledGraph : Payload → Bool
  | .graph value => !value.nodes.ids.isEmpty || !value.relationships.ids.isEmpty
  | _ => false

/-- How deep arrays and objects may be nested in a value that is held. A document may be nested 127
deep, of which the response and its payload take two. -/
def heldDepth : Nat := 125

/-- Reads a payload. A value in front of the type has to be held until the type is known. The
numbers under which a graph holds its parts cannot be told from texts then. -/
def ofJson? (json : Json) : Option Payload :=
  match json.fields? ["type", "value"] with
  | some [some type, some value] => do
      let payload ← ofTyped? (← type.choice?) value
      if typeComesFirst json || (value.isSettled heldDepth && !payload.isFilledGraph) then
        some payload
      else none
  | _ => none

end Payload

namespace Response

def members (response : Response) : List (String × Json) :=
  [("success", .bool response.success), ("message", .ofString response.message)] ++
    (response.result.map fun payload => ("result", payload.toJson)).toList ++
    (response.position.map fun position => ("error", position.toJson)).toList ++
    (response.code.map fun code => ("code", Json.ofString code)).toList

def toJson (response : Response) : Json :=
  .ofMembers (response.members ++ [("timestamp", .ofString response.timestamp.text)])

def line (response : Response) : String := response.toJson.render

end Response

namespace Response

def ofJson? (json : Json) : Option Response :=
  match json.fields? ["success", "message", "result", "error", "code", "timestamp"] with
  | some [some success, some message, result, position, code, some timestamp] => do
      return {
        success := ← success.bool?
        message := ← message.string?
        result := ← Json.optional? Payload.ofJson? result
        position := ← Json.optional? Position.ofJson? position
        code := ← Json.optional? Json.string? code
        timestamp := ← Timestamp.parse? (← timestamp.string?) }
  | _ => none

end Response

end GraphStore
