import GraphStore.Query.Tree
import GraphStore.Response

/-!
# Tokens and trees as data

The forms in which tokens and trees are exchanged. A tree is a table of nodes that refer to each
other by their places.
-/

set_option autoImplicit false

namespace GraphStore.Query

namespace Token

def toJson (token : Token) : Json :=
  .ofMembers
    [("kind", .ofString token.kind.label), ("text", .ofOption .ofString token.text),
      ("position", token.position.toJson)]

def ofJson? (json : Json) : Option Token :=
  match json.fields? ["kind", "text", "position"] with
  | some [some kind, text, some position] => do
      return {
        kind := ← TokenKind.ofLabel? (← kind.choice?)
        text := ← Json.optional? Json.string? text
        position := ← Position.ofJson? position }
  | _ => none

end Token

def TreeKind.toJson : TreeKind → Json
  | .rule inner => .ofMembers [("Rule", .ofString inner.label)]
  | .terminal kind => .ofMembers [("Terminal", .ofString kind.label)]

def TreeNode.toJson (node : TreeNode) : Json :=
  .ofMembers
    [("kind", node.kind.toJson), ("text", .ofOption .ofString node.text),
      ("position", node.position.toJson), ("first_child", .ofOption .ofNat node.firstChild),
      ("next_sibling", .ofOption .ofNat node.nextSibling)]

def TokenTree.toJson (tree : TokenTree) : Json :=
  .ofMembers [("nodes", .ofList TreeNode.toJson tree.nodes.toList)]

end GraphStore.Query
