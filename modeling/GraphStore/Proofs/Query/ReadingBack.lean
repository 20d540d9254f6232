import GraphStore.Query.Execution
import GraphStore.Proofs.Query.Children
import Mathlib.Data.List.Find

/-!
# Statements read back from a tree

What the nodes of a script are, told without its tree. Main statement: the tree that holds some
statements gives the nodes of these statements, the fault included that they may have.
-/

set_option autoImplicit false

namespace GraphStore.Query

open Text

/-!
## The nodes of statements
-/

def PropertyClause.property (clause : PropertyClause) : Except Error Property :=
  match clause.value.kind with
  | .string => .ok ⟨clause.name.content, .text clause.value.content⟩
  | .number =>
      match (parseInt? clause.value.content).bind int64? with
      | some number => .ok ⟨clause.name.content, .int number⟩
      | none =>
          .error
            (.syntaxError clause.value.position s!"Number {clause.value.content} is out of range")
  | other =>
      .error (.internal s!"unexpected property value {(TreeKind.terminal other).describe}")

def NodeClause.node (clause : NodeClause) : Except Error Node := do
  let properties ← clause.properties.mapM PropertyClause.property
  return {
    id := none
    name := some clause.name.content
    labels := clause.labels.map Token.content
    properties
    relationships := [] }

def Statement.nodes : Statement → Except Error (List Node)
  | .create _ clause => do return [← clause.node]
  | .empty _ => .ok []

/-- A node of which nothing is said. -/
private def blank : Node :=
  { id := none, name := none, labels := [], properties := [], relationships := [] }

/-!
## Readers under grafts

What is read from a place depends on what stands at the place and below it.
-/

section

variable {α β : Type} {items : List α}

private theorem mapM_eq_of_map_eq {γ : Type} {others : List β} {f : α → Except Error γ}
    {g : β → Except Error γ} (same : items.map f = others.map g) : items.mapM f = others.mapM g := by
  have left : items.mapM f = (items.map f).mapM id := by
    rw [List.mapM_map]
    rfl
  have right : others.mapM g = (others.map g).mapM id := by
    rw [List.mapM_map]
    rfl
  rw [left, right, same]

private theorem foldlM_congr {f g : β → α → Except Error β}
    (same : ∀ item ∈ items, ∀ state, f state item = g state item) (state : β) :
    items.foldlM f state = items.foldlM g state := by
  induction items generalizing state with
  | nil => rfl
  | cons item rest ih =>
      obtain ⟨here, others⟩ := List.forall_mem_cons.mp same
      rw [List.foldlM_cons, List.foldlM_cons, here state]
      exact bind_congr fun next => ih others next

end

section

variable {tree grown : TokenTree} {parent place : Nat} {new : List Nat}

/-- The property that the parts of a property stand for. -/
private def propertyOfParts : List TreeNode → Except Error Property
  | key :: value :: _ =>
      match value.kind with
      | .terminal .string => .ok ⟨key.content, .text value.content⟩
      | .terminal .number =>
          match (parseInt? value.content).bind int64? with
          | some number => .ok ⟨key.content, .int number⟩
          | none => .error (.syntaxError value.position s!"Number {value.content} is out of range")
      | other => .error (.internal s!"unexpected property value {other.describe}")
  | _ => .error (.internal "property node without key and value")

private theorem propertyOf_eq (tree : TokenTree) (place : Nat) :
    propertyOf tree place = propertyOfParts ((tree.children place).filterMap tree.bare?) := by
  have parts : (tree.children place).filterMap tree.bare? =
      ((tree.children place).filterMap tree.node?).map TreeNode.bare := List.map_filterMap.symm
  rw [parts, propertyOf]
  cases (tree.children place).filterMap tree.node? with
  | nil => rfl
  | cons key rest =>
      cases rest with
      | nil => rfl
      | cons value rest => rfl

private theorem contentOf_eq (tree : TokenTree) (place : Nat) :
    contentOf tree place = ((tree.bare? place).map TreeNode.content).getD "" := by
  rw [contentOf, TokenTree.bare?]
  cases tree.node? place <;> rfl

private theorem kind_eq (tree : TokenTree) (place : Nat) :
    (tree.node? place).map TreeNode.kind = (tree.bare? place).map TreeNode.kind := by
  rw [TokenTree.bare?]
  cases tree.node? place <;> rfl

namespace TokenTree

theorem IsLinked.inside (linked : tree.IsLinked) {child : Nat} (member : child ∈ tree.children place) :
    place < child ∧ child < tree.size := Links.inside linked place child member

/-- Growth above a place leaves what is read from it. -/
structure AgreeAbove (tree grown : TokenTree) (parent : Nat) : Prop where
  linked : tree.IsLinked
  bare? : ∀ place, parent < place → place < tree.size → grown.bare? place = tree.bare? place
  children : ∀ place, parent < place → place < tree.size →
    grown.children place = tree.children place

theorem Grafts.agreeAbove (grafts : Grafts tree parent new grown) (linked : tree.IsLinked) :
    AgreeAbove tree grown parent where
  linked := linked
  bare? place _ inside := grafts.bare? place inside
  children place above inside := by
    rw [grafts.children place inside, if_neg (Nat.ne_of_gt above)]

variable (agree : AgreeAbove tree grown parent) (above : parent < place) (inside : place < tree.size)

include agree above inside

theorem AgreeAbove.contentOf : contentOf grown place = contentOf tree place := by
  rw [contentOf_eq, contentOf_eq, agree.bare? place above inside]

theorem AgreeAbove.propertyOf : propertyOf grown place = propertyOf tree place := by
  rw [propertyOf_eq, propertyOf_eq, agree.children place above inside]
  congr 1
  refine List.filterMap_congr fun child member => ?_
  obtain ⟨below, within⟩ := agree.linked.inside member
  exact agree.bare? child (Nat.lt_trans above below) within

theorem AgreeAbove.addPart (node : Node) : addPart grown node place = addPart tree node place := by
  have contents (child : Nat) (member : child ∈ tree.children place) :
      Query.contentOf grown child = Query.contentOf tree child := by
    obtain ⟨below, within⟩ := agree.linked.inside member
    exact agree.contentOf (Nat.lt_trans above below) within
  have properties (child : Nat) (member : child ∈ tree.children place) :
      Query.propertyOf grown child = Query.propertyOf tree child := by
    obtain ⟨below, within⟩ := agree.linked.inside member
    exact agree.propertyOf (Nat.lt_trans above below) within
  rw [Query.addPart, Query.addPart, kind_eq, kind_eq, agree.bare? place above inside,
    agree.children place above inside, agree.contentOf above inside, List.map_congr_left contents,
    mapM_eq_of_map_eq (List.map_congr_left properties)]

theorem AgreeAbove.nodeOf : nodeOf grown place = nodeOf tree place := by
  rw [Query.nodeOf, Query.nodeOf, agree.children place above inside]
  refine foldlM_congr (fun child member node => ?_) _
  obtain ⟨below, within⟩ := agree.linked.inside member
  exact agree.addPart (Nat.lt_trans above below) within node

theorem AgreeAbove.nodesOf : nodesOf grown place = nodesOf tree place := by
  have isDefinition (child : Nat) (member : child ∈ tree.children place) :
      ((grown.node? child).any fun node => node.kind == .rule .nodeDefinition) =
        (tree.node? child).any fun node => node.kind == .rule .nodeDefinition := by
    obtain ⟨below, within⟩ := agree.linked.inside member
    have kinds := congrArg (Option.map TreeNode.kind)
      (agree.bare? child (Nat.lt_trans above below) within)
    rw [← kind_eq, ← kind_eq] at kinds
    simpa only [Option.any_map, Function.comp_def] using
      congrArg (Option.any (· == .rule .nodeDefinition)) kinds
  rw [Query.nodesOf, Query.nodesOf, kind_eq, kind_eq, agree.bare? place above inside,
    agree.children place above inside]
  dsimp only
  rw [List.find?_congr isDefinition]
  split
  · split
    · next found =>
        obtain ⟨below, within⟩ := agree.linked.inside (List.mem_of_find?_eq_some found)
        rw [agree.nodeOf (Nat.lt_trans above below) within]
    · rfl
  all_goals rfl

end TokenTree

end

/-!
## Readers behind additions
-/

namespace TokenTree

section

variable {tree : TokenTree} {parent : Nat}

theorem IsLinked.children_eq_nil (linked : tree.IsLinked) {place : Nat} (outside : tree.size ≤ place) :
    tree.children place = [] := Links.below_eq_nil linked outside

theorem Grafts.size_lt {grown : TokenTree} {first : Nat} {new : List Nat}
    (grafts : Grafts tree parent (first :: new) grown) (within : parent < tree.size) :
    first < grown.size := by
  have children := grafts.children parent within
  rw [if_pos rfl] at children
  have member : first ∈ grown.children parent := by simp [children]
  exact (grafts.linked.inside member).2

/-- Items that are added one after the other are read back one after the other, if each is read back
where it is added and what is read does not change with growth above it. -/
theorem exists_grafts_foldl {α β : Type} {add : TokenTree → α → TokenTree}
    {read : TokenTree → Nat → β} {give : α → β}
    (stable : ∀ {tree grown : TokenTree} {place : Nat}, AgreeAbove tree grown parent →
      parent < place → place < tree.size → read grown place = read tree place)
    (linked : tree.IsLinked) (within : parent < tree.size) (items : List α)
    (adds : ∀ tree : TokenTree, tree.IsLinked → parent < tree.size → ∀ item ∈ items,
      Grafts tree parent [tree.size] (add tree item) ∧
        read (add tree item) tree.size = give item) :
    ∃ new, Grafts tree parent new (items.foldl add tree) ∧
      new.map (read (items.foldl add tree)) = items.map give := by
  induction items generalizing tree with
  | nil => exact ⟨[], .refl linked parent, rfl⟩
  | cons item rest ih =>
      obtain ⟨grafts, reads⟩ := adds tree linked within item List.mem_cons_self
      have inside : tree.size < (add tree item).size := grafts.size_lt within
      obtain ⟨new, others, readsOthers⟩ :=
        ih grafts.linked (Nat.lt_trans within inside) fun tree linked within item member =>
          adds tree linked within item (List.mem_cons_of_mem _ member)
      refine ⟨tree.size :: new, grafts.trans within others, ?_⟩
      rw [List.foldl_cons, List.map_cons, List.map_cons, readsOthers,
        stable (others.agreeAbove grafts.linked) within inside, reads]

/-- A new node has no children, and its kind, text and position are those given. -/
theorem IsLinked.added (linked : tree.IsLinked) (within : parent < tree.size) (kind : TreeKind)
    (text : Option String) (position : Position) :
    (tree.insert id parent kind text position).children tree.size = [] ∧
      (tree.insert id parent kind text position).bare? tree.size =
        some (.single kind text position) := by
  constructor
  · rw [linked.children_insert within, if_neg (Nat.ne_of_gt within),
      linked.children_eq_nil (Nat.le_refl _)]
  · rw [Links.bare?_insert linked within, if_pos rfl]

variable (linked : tree.IsLinked) (within : parent < tree.size)

include linked within

theorem insertToken_adds (token : Token) :
    Grafts tree parent [tree.size] (tree.insertToken id parent token) ∧
      contentOf (tree.insertToken id parent token) tree.size = token.content := by
  refine ⟨.of_insert linked within _ _ _, ?_⟩
  rw [contentOf_eq, insertToken, (linked.added within _ _ _).2]
  rfl

theorem addName_adds {token : Token} (isString : token.kind = .string) (node : Node) :
    Grafts tree parent [tree.size] (tree.insertToken id parent token) ∧
      addPart (tree.insertToken id parent token) node tree.size =
        .ok { node with name := some token.content } := by
  obtain ⟨grafts, reads⟩ := insertToken_adds linked within token
  refine ⟨grafts, ?_⟩
  have bare := (linked.added within (.terminal token.kind) token.text token.position).2
  rw [isString] at bare
  rw [addPart, kind_eq, reads]
  simp only [insertToken, isString, bare]
  rfl

theorem addProperty_adds (property : PropertyClause) :
    Grafts tree parent [tree.size] (tree.addProperty id parent property) ∧
      propertyOf (tree.addProperty id parent property) tree.size = property.property := by
  have grafts := Grafts.of_insert linked within (.rule .property) none property.name.position
  have inside := grafts.size_lt within
  have keyed := Grafts.of_insert grafts.linked inside (.terminal property.name.kind)
    property.name.text property.name.position
  have keyInside := keyed.size_lt inside
  have valued := Grafts.of_insert keyed.linked (Nat.lt_trans inside keyInside)
    (.terminal property.value.kind) property.value.text property.value.position
  have children := valued.children tree.size (Nat.lt_trans inside keyInside)
  rw [if_pos rfl, keyed.children tree.size inside, if_pos rfl, (linked.added within _ _ _).1]
    at children
  have key := valued.bare? _ keyInside
  rw [(grafts.linked.added inside _ _ _).2] at key
  have value := (keyed.linked.added (Nat.lt_trans inside keyInside) (.terminal property.value.kind)
    property.value.text property.value.position).2
  refine ⟨(grafts.deeper (Nat.le_refl _) keyed).deeper (Nat.le_refl _) valued, ?_⟩
  rw [propertyOf_eq, addProperty, id_eq, insertToken, insertToken, insertRule, children]
  simp only [List.nil_append, List.singleton_append, List.filterMap_cons, List.filterMap_nil, key,
    value]
  cases kind : property.value.kind <;>
    simp only [propertyOfParts, PropertyClause.property, kind, TreeNode.single, TreeNode.content,
      Token.content]

theorem addLabels_adds (clause : NodeClause) (node : Node) :
    Grafts tree parent [tree.size] (tree.addLabels id parent clause) ∧
      addPart (tree.addLabels id parent clause) node tree.size =
        .ok { node with labels := clause.labels.map Token.content } := by
  have grafts := Grafts.of_insert linked within (.rule .labelArray) none clause.labelsAt
  have inside := grafts.size_lt within
  obtain ⟨new, labelled, reads⟩ := exists_grafts_foldl (fun agree => agree.contentOf) grafts.linked
    inside clause.labels fun _ linked within label _ => insertToken_adds linked within label
  refine ⟨grafts.deeper (Nat.le_refl _) labelled, ?_⟩
  have children := labelled.children tree.size inside
  have bare := labelled.bare? tree.size inside
  rw [if_pos rfl, (linked.added within _ _ _).1, List.nil_append] at children
  rw [(linked.added within _ _ _).2] at bare
  rw [addPart, kind_eq, addLabels]
  simp only [insertRule, id_eq, bare, children, reads]
  rfl

/-- Properties are a part of a node unless there are none. -/
theorem addProperties_adds {properties : List PropertyClause} (some : properties ≠ [])
    (node : Node) :
    Grafts tree parent [tree.size] (tree.addProperties id parent properties) ∧
      addPart (tree.addProperties id parent properties) node tree.size =
        (properties.mapM PropertyClause.property).map fun added =>
          { node with properties := node.properties ++ added } := by
  cases properties with
  | nil => exact absurd rfl some
  | cons first rest =>
      have grafts := Grafts.of_insert linked within (.rule .propertyList) none first.name.position
      have inside := grafts.size_lt within
      obtain ⟨new, added, reads⟩ := exists_grafts_foldl (fun agree => agree.propertyOf) grafts.linked
        inside (first :: rest) fun _ linked within property _ =>
          addProperty_adds linked within property
      refine ⟨grafts.deeper (Nat.le_refl _) added, ?_⟩
      have children := added.children tree.size inside
      have bare := added.bare? tree.size inside
      rw [if_pos rfl, (linked.added within _ _ _).1, List.nil_append] at children
      rw [(linked.added within _ _ _).2] at bare
      rw [addPart, kind_eq, addProperties]
      simp only [insertRule, id_eq, bare, children, mapM_eq_of_map_eq reads]
      cases (first :: rest).mapM PropertyClause.property <;> rfl

/-- The name and the labels of a node are two parts that are always there. -/
theorem addLabels_insertToken_adds {clause : NodeClause} (isString : clause.name.kind = .string) :
    let named := (tree.insertToken id parent clause.name).addLabels id parent clause
    ∃ parts, Grafts tree parent parts named ∧
      parts.foldlM (addPart named) blank =
        .ok {
          blank with
          name := some clause.name.content
          labels := clause.labels.map Token.content } := by
  obtain ⟨named, readsName⟩ := addName_adds linked within isString blank
  have inside := named.size_lt within
  obtain ⟨labelled, readsLabels⟩ := addLabels_adds named.linked (Nat.lt_trans within inside) clause
    { blank with name := some clause.name.content }
  refine ⟨_, named.trans within labelled, ?_⟩
  rw [List.singleton_append, List.foldlM_cons,
    (labelled.agreeAbove named.linked).addPart within inside, readsName]
  change (List.foldlM _ _ [_] : Except Error Node) = _
  rw [List.foldlM_cons, readsLabels]
  rfl

theorem addDefinition_adds {clause : NodeClause} (isString : clause.name.kind = .string) :
    Grafts tree parent [tree.size] (tree.addDefinition id parent clause) ∧
      (tree.addDefinition id parent clause).bare? tree.size =
        some (.single (.rule .nodeDefinition) none clause.name.position) ∧
      nodeOf (tree.addDefinition id parent clause) tree.size = clause.node := by
  have grafts := Grafts.of_insert linked within (.rule .nodeDefinition) none clause.name.position
  have inside := grafts.size_lt within
  obtain ⟨childless, bare⟩ := linked.added within (.rule .nodeDefinition) none clause.name.position
  obtain ⟨parts, described, reads⟩ := addLabels_insertToken_adds grafts.linked inside isString
  have children := described.children tree.size inside
  rw [if_pos rfl, childless, List.nil_append] at children
  have isDefinition := described.bare? tree.size inside
  rw [bare] at isDefinition
  rw [addDefinition]
  by_cases bare : clause.properties = []
  · rw [bare]
    refine ⟨grafts.deeper (Nat.le_refl _) described, isDefinition, ?_⟩
    rw [nodeOf, addProperties, id_eq, insertRule, children, NodeClause.node, bare]
    exact reads
  · have describedInside := Nat.lt_of_lt_of_le inside described.size_le
    obtain ⟨detailed, readsProperties⟩ := addProperties_adds described.linked describedInside bare
      { blank with
        name := some clause.name.content
        labels := clause.labels.map Token.content }
    refine ⟨(grafts.deeper (Nat.le_refl _) described).deeper (Nat.le_refl _) detailed,
      (detailed.bare? _ describedInside).trans isDefinition, ?_⟩
    have allChildren := detailed.children tree.size describedInside
    rw [if_pos rfl, children] at allChildren
    have readsBefore := foldlM_congr (fun part (member : part ∈ parts) node =>
      have place := described.linked.inside (children ▸ member)
      (detailed.agreeAbove described.linked).addPart place.1 place.2 node) blank
    rw [nodeOf, id_eq, insertRule, allChildren, List.foldlM_append]
    refine (congrArg (· >>= _) (readsBefore.trans reads)).trans ?_
    change (List.foldlM _ _ [_] : Except Error Node) = _
    rw [List.foldlM_cons]
    refine (congrArg (· >>= _) readsProperties).trans ?_
    rw [NodeClause.node]
    cases clause.properties.mapM PropertyClause.property <;> rfl

theorem addStatement_adds {statement : Statement} (root : parent = 0)
    (isString : ∀ position clause, statement = .create position clause →
      clause.name.kind = .string) :
    Grafts tree parent [tree.size] (tree.addStatement id statement) ∧
      nodesOf (tree.addStatement id statement) tree.size = statement.nodes := by
  subst root
  cases statement with
  | empty position =>
      refine ⟨.of_insert linked within _ _ _, ?_⟩
      rw [nodesOf, kind_eq, addStatement, insertRule, (linked.added within _ _ _).2]
      rfl
  | create position clause =>
      have grafts := Grafts.of_insert linked within (.rule .createStatement) none position
      have inside := grafts.size_lt within
      obtain ⟨childless, bare⟩ := linked.added within (.rule .createStatement) none position
      obtain ⟨defined, isDefinition, reads⟩ :=
        addDefinition_adds grafts.linked inside (isString position clause rfl)
      refine ⟨grafts.deeper (Nat.le_refl _) defined, ?_⟩
      have children := defined.children tree.size inside
      rw [if_pos rfl, childless, List.nil_append] at children
      have isStatement := defined.bare? tree.size inside
      rw [bare] at isStatement
      have kind := kind_eq _ _ |>.trans (congrArg (Option.map TreeNode.kind) isDefinition)
      obtain ⟨definition, there, isNode⟩ := Option.map_eq_some_iff.mp kind
      have found : [(tree.insert id 0 (.rule .createStatement) none position).size].find?
          (fun place => (((tree.insert id 0 (.rule .createStatement) none position).addDefinition id
            tree.size clause).node? place).any fun node => node.kind == .rule .nodeDefinition) =
          some (tree.insert id 0 (.rule .createStatement) none position).size := by
        rw [List.find?_cons, there, Option.any_some, isNode]
        rfl
      rw [nodesOf, kind_eq, addStatement, id_eq, insertRule, isStatement, children]
      simp only [Option.map_some, TreeNode.single, found, reads]
      rfl

end

theorem exists_grafts_ofStatements (position : Position) {statements : List Statement}
    (areStrings : ∀ position clause, .create position clause ∈ statements →
      clause.name.kind = .string) :
    ∃ new, Grafts (ofRoot position) 0 new (ofStatements id position statements) ∧
      new.map (nodesOf (ofStatements id position statements)) = statements.map Statement.nodes :=
  exists_grafts_foldl (fun agree => agree.nodesOf) (isLinked_ofRoot position) Nat.zero_lt_one
    statements fun _ linked within _ member =>
      addStatement_adds linked within rfl fun position clause same =>
        areStrings position clause (same ▸ member)

end TokenTree

/-- The tree of statements gives back their nodes. -/
theorem scriptNodes_ofStatements {position : Position} {statements : List Statement}
    (areStrings : ∀ position clause, .create position clause ∈ statements →
      clause.name.kind = .string) :
    scriptNodes (.ofStatements id position statements) =
      (statements.mapM Statement.nodes).map List.flatten := by
  obtain ⟨new, grafts, reads⟩ := TokenTree.exists_grafts_ofStatements position areStrings
  have children := grafts.children 0 Nat.zero_lt_one
  rw [if_pos rfl, (TokenTree.Links.ofRoot position).children_eq, List.nil_append] at children
  rw [scriptNodes, TokenTree.statements, children, mapM_eq_of_map_eq reads]

end GraphStore.Query
