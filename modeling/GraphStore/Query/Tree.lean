import GraphStore.Query.Token
import GraphStore.Text.Quoted

/-!
# Trees in one table

A tree whose nodes stand in one table in the order in which they were added. Each node knows its
first child and its next sibling by their places.
-/

set_option autoImplicit false

namespace GraphStore.Query

open GraphStore.Text

/-- The inner nodes of a script. -/
inductive Rule where
  | script
  | createStatement
  | emptyStatement
  | nodeDefinition
  | labelArray
  | propertyList
  | property
deriving Repr, DecidableEq, Inhabited

namespace Rule

def all : List Rule :=
  [script, createStatement, emptyStatement, nodeDefinition, labelArray, propertyList, property]

def label : Rule → String
  | script => "Script"
  | createStatement => "CreateStatement"
  | emptyStatement => "EmptyStatement"
  | nodeDefinition => "NodeDefinition"
  | labelArray => "LabelArray"
  | propertyList => "PropertyList"
  | property => "Property"

def ofLabel? (label : String) : Option Rule := all.find? (·.label == label)

end Rule

/-- What a node of the tree stands for. -/
inductive TreeKind where
  | rule (rule : Rule)
  | terminal (kind : TokenKind)
deriving Repr, DecidableEq, Inhabited

def TreeKind.describe : TreeKind → String
  | .rule name => s!"Rule({name.label})"
  | .terminal kind => s!"Terminal({kind.label})"

/-- A node of the tree. -/
structure TreeNode where
  kind : TreeKind
  /-- The text of the token that a leaf stands for. -/
  text : Option String
  /-- The position of the first token. -/
  position : Position
  firstChild : Option Nat
  nextSibling : Option Nat
  /-- The child that was added last, behind which the next one is linked. -/
  lastChild : Option Nat
deriving Repr, DecidableEq, Inhabited

namespace TreeNode

/-- A node without links. -/
def single (kind : TreeKind) (text : Option String) (position : Position) : TreeNode :=
  { kind, text, position, firstChild := none, nextSibling := none, lastChild := none }

def content (node : TreeNode) : String := node.text.getD ""

end TreeNode

/-- A tree with its root in place 0. -/
structure TokenTree where
  nodes : Array TreeNode
deriving Repr, DecidableEq, Inhabited

namespace TokenTree

def ofRoot (position : Position) : TokenTree := ⟨#[.single (.rule .script) none position]⟩

def size (tree : TokenTree) : Nat := tree.nodes.size

def node? (tree : TokenTree) (index : Nat) : Option TreeNode := tree.nodes[index]?

/-- Links the node in place `child` behind the last child of the node in place `parent`. -/
def link (nodes : Array TreeNode) (parent child : Nat) : Array TreeNode :=
  let linked :=
    match (nodes[parent]?).bind TreeNode.lastChild with
    | some last => nodes.modify last fun node => { node with nextSibling := some child }
    | none => nodes.modify parent fun node => { node with firstChild := some child }
  linked.modify parent fun node => { node with lastChild := some child }

section

variable (number : Nat → Nat) (tree : TokenTree) (parent : Nat)

/-- Adds a node as the last child of `parent`. Its place is the former size of the tree, which the
links hold as `number` gives it. -/
def insert (kind : TreeKind) (text : Option String) (position : Position) : TokenTree :=
  ⟨link (tree.nodes.push (.single kind text position)) parent (number tree.size)⟩

def insertRule (rule : Rule) (position : Position) : TokenTree :=
  tree.insert number parent (.rule rule) none position

def insertToken (token : Token) : TokenTree :=
  tree.insert number parent (.terminal token.kind) token.text token.position

end

/-- A place as 32 bits hold it. -/
def shortPlace (place : Nat) : Nat := (UInt32.ofNat place).toNat

def addRule (tree : TokenTree) (parent : Nat) (rule : Rule) (position : Position) : TokenTree :=
  tree.insertRule shortPlace parent rule position

def addToken (tree : TokenTree) (parent : Nat) (token : Token) : TokenTree :=
  tree.insertToken shortPlace parent token

/-- Follows the links to next siblings, for at most `steps` nodes. -/
def chain (tree : TokenTree) : (steps : Nat) → Option Nat → List Nat
  | 0, _ => []
  | _, none => []
  | steps + 1, some index =>
      index :: tree.chain steps ((tree.node? index).bind TreeNode.nextSibling)

def children (tree : TokenTree) (index : Nat) : List Nat :=
  tree.chain tree.size ((tree.node? index).bind TreeNode.firstChild)

def statements (tree : TokenTree) : List Nat := tree.children 0

/-- Shows the node in a place with all below it, at most `depth` levels deep. -/
def renderFrom (tree : TokenTree) : (depth : Nat) → Nat → String
  | 0, _ => ""
  | depth + 1, index =>
      match tree.node? index with
      | none => ""
      | some node =>
          match node.kind with
          | .rule rule =>
              let below := (tree.children index).map fun child => " " ++ tree.renderFrom depth child
              "(" ++ rule.label ++ String.join below ++ ")"
          | .terminal .string => quoted node.content
          | .terminal _ => node.content

def render (tree : TokenTree) : String := tree.renderFrom tree.size 0

end TokenTree

end GraphStore.Query
