import GraphStore.Query.Parser
import GraphStore.Proofs.Query.Children

/-!
# Places of 32 bits

Links may hold the places of a tree as they are or as 32 bits hold them. Main statement: for a
script both make the same tree, as long as 32 bits hold all its places.
-/

set_option autoImplicit false

namespace GraphStore.Query

namespace TokenTree

/-- Two ways to add nodes, the first of which takes none away, that make the same tree of no more
than `limit` nodes. -/
def AlikeUpTo (limit : Nat) (build other : TokenTree → TokenTree) : Prop :=
  ∀ tree, tree.size ≤ (build tree).size ∧ ((build tree).size ≤ limit → other tree = build tree)

namespace AlikeUpTo

variable {limit : Nat} {build other next following : TokenTree → TokenTree} {number : Nat → Nat}

theorem refl (limit : Nat) : AlikeUpTo limit id id := fun _ => ⟨Nat.le_refl _, fun _ => rfl⟩

theorem trans (first : AlikeUpTo limit build other) (second : AlikeUpTo limit next following) :
    AlikeUpTo limit (next ∘ build) (following ∘ other) := by
  intro tree
  obtain ⟨grows, same⟩ := first tree
  obtain ⟨growsOn, sameOn⟩ := second (build tree)
  refine ⟨Nat.le_trans grows growsOn, fun few => ?_⟩
  rw [Function.comp_apply, Function.comp_apply, same (Nat.le_trans growsOn few), sameOn few]

theorem foldl {α : Type} {add into : TokenTree → α → TokenTree}
    (each : ∀ item, AlikeUpTo limit (add · item) (into · item)) (items : List α) :
    AlikeUpTo limit (items.foldl add) (items.foldl into) := by
  induction items with
  | nil => exact refl limit
  | cons item rest ih => exact (each item).trans ih

section

variable (whole : ∀ place < limit, number place = place)

include whole

/-- What is added below a new node finds it by its place. -/
theorem insert_then {below under : Nat → TokenTree → TokenTree}
    (onward : ∀ place, AlikeUpTo limit (below place) (under place)) (parent : Nat)
    (kind : TreeKind) (text : Option String) (position : Position) :
    AlikeUpTo limit (fun tree => below tree.size (tree.insert id parent kind text position))
      (fun tree => under (number tree.size) (tree.insert number parent kind text position)) := by
  intro tree
  obtain ⟨grows, same⟩ := onward tree.size (tree.insert id parent kind text position)
  rw [size_insert] at grows
  refine ⟨Nat.le_of_succ_le grows, fun few => ?_⟩
  have here : number tree.size = tree.size := whole _ (Nat.lt_of_lt_of_le grows few)
  have inserted : tree.insert number parent kind text position =
      tree.insert id parent kind text position := by
    rw [insert, insert, here, id_eq]
  dsimp only
  rw [here, inserted, same few]

theorem insertToken (parent : Nat) (token : Token) :
    AlikeUpTo limit (TokenTree.insertToken id · parent token)
      (TokenTree.insertToken number · parent token) :=
  insert_then whole (fun _ => refl limit) _ _ _ _

theorem addProperty (list : Nat) (property : PropertyClause) :
    AlikeUpTo limit (TokenTree.addProperty id · list property)
      (TokenTree.addProperty number · list property) := by
  have parts (place : Nat) :=
    (insertToken whole place property.name).trans (insertToken whole place property.value)
  exact insert_then whole parts list (.rule .property) none property.name.position

theorem addProperties (definition : Nat) (properties : List PropertyClause) :
    AlikeUpTo limit (TokenTree.addProperties id · definition properties)
      (TokenTree.addProperties number · definition properties) := by
  cases properties with
  | nil => exact refl limit
  | cons first rest =>
      have parts (list : Nat) := foldl (addProperty whole list) (first :: rest)
      exact insert_then whole parts definition (.rule .propertyList) none first.name.position

theorem addLabels (definition : Nat) (node : NodeClause) :
    AlikeUpTo limit (TokenTree.addLabels id · definition node)
      (TokenTree.addLabels number · definition node) := by
  have parts (array : Nat) := foldl (insertToken whole array) node.labels
  exact insert_then whole parts definition (.rule .labelArray) none node.labelsAt

theorem addDefinition (statement : Nat) (node : NodeClause) :
    AlikeUpTo limit (TokenTree.addDefinition id · statement node)
      (TokenTree.addDefinition number · statement node) := by
  have parts (definition : Nat) :=
    ((insertToken whole definition node.name).trans (addLabels whole definition node)).trans
      (addProperties whole definition node.properties)
  exact insert_then whole parts statement (.rule .nodeDefinition) none node.name.position

theorem addStatement (statement : Statement) :
    AlikeUpTo limit (TokenTree.addStatement id · statement)
      (TokenTree.addStatement number · statement) := by
  cases statement with
  | create position node =>
      have parts (place : Nat) := addDefinition whole place node
      exact insert_then whole parts 0 (.rule .createStatement) none position
  | empty position => exact insert_then whole (fun _ => refl limit) _ _ _ _

end

end AlikeUpTo

/-- The tree of some statements does not hang on what `number` makes of places that it has not. -/
theorem ofStatements_eq {limit : Nat} {number : Nat → Nat}
    (whole : ∀ place < limit, number place = place) {position : Position}
    {statements : List Statement} (few : (ofStatements id position statements).size ≤ limit) :
    ofStatements number position statements = ofStatements id position statements :=
  (AlikeUpTo.foldl (AlikeUpTo.addStatement whole) statements (ofRoot position)).2 few

end TokenTree

/-- With links of 32 bits the tree of a script is the same, as long as these hold all its places. -/
theorem parseWith_shortPlace {separator : Separator} {text : String} {tree : TokenTree}
    (parsed : parse separator text = .ok tree) (few : tree.size ≤ UInt32.size) :
    parseWith TokenTree.shortPlace separator text = .ok tree := by
  rw [parse, parseWith] at parsed
  rw [parseWith]
  cases read : parseStatements separator text with
  | error fault =>
      rw [read] at parsed
      cases parsed
  | ok statements =>
      rw [read] at parsed
      cases parsed
      exact congrArg Except.ok
        (TokenTree.ofStatements_eq (fun _ inside => TokenTree.shortPlace_of_lt inside) few)

end GraphStore.Query
