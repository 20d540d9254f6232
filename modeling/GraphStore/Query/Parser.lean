import GraphStore.Query.Statement
import GraphStore.Query.Tree

/-!
# Trees of scripts

The tree of a script holds its statements in the order of the text, each node before the nodes
below it. A node is known to what is added below it as `number` gives its place.
-/

set_option autoImplicit false

namespace GraphStore.Query

namespace TokenTree

variable (number : Nat → Nat)

def addProperty (tree : TokenTree) (list : Nat) (property : PropertyClause) : TokenTree :=
  let place := number tree.size
  let named := (tree.insertRule number list .property property.name.position).insertToken number
    place property.name
  named.insertToken number place property.value

/-- Adds the properties of a node below its definition in place `definition`, if there are any. -/
def addProperties (tree : TokenTree) (definition : Nat) (properties : List PropertyClause) :
    TokenTree :=
  match properties with
  | [] => tree
  | first :: _ =>
      let list := number tree.size
      properties.foldl (fun tree property => tree.addProperty number list property)
        (tree.insertRule number definition .propertyList first.name.position)

/-- Adds the labels of a node below its definition in place `definition`. -/
def addLabels (tree : TokenTree) (definition : Nat) (node : NodeClause) : TokenTree :=
  let array := number tree.size
  node.labels.foldl (fun tree label => tree.insertToken number array label)
    (tree.insertRule number definition .labelArray node.labelsAt)

/-- Adds the definition of a node below the statement in place `statement`. -/
def addDefinition (tree : TokenTree) (statement : Nat) (node : NodeClause) : TokenTree :=
  let definition := number tree.size
  let named := (tree.insertRule number statement .nodeDefinition node.name.position).insertToken
    number definition node.name
  (named.addLabels number definition node).addProperties number definition node.properties

def addStatement (tree : TokenTree) : Statement → TokenTree
  | .create position node =>
      (tree.insertRule number 0 .createStatement position).addDefinition number
        (number tree.size) node
  | .empty position => tree.insertRule number 0 .emptyStatement position

/-- The tree of a script whose first token stands at `position`. -/
def ofStatements (position : Position) (statements : List Statement) : TokenTree :=
  statements.foldl (addStatement number) (ofRoot position)

end TokenTree

/-- The tree of a script, or the first fault in its text. -/
def parseWith (number : Nat → Nat) (separator : Separator) (text : String) :
    Except Error TokenTree :=
  (parseStatements separator text).map fun parsed => .ofStatements number parsed.1 parsed.2

/-- The tree of a script with its places as they are. Where 32 bits hold all of them, links of 32
bits make the same tree. -/
def parse (separator : Separator) (text : String) : Except Error TokenTree :=
  parseWith id separator text

end GraphStore.Query
