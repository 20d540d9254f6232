import GraphStore.Proofs.Query.Children

/-!
# Trees grown node by node

Sequences of calls that each add a node below one that is there. Main statement: as long as 32 bits
hold every place, the links lead from each node to the nodes that were added below it, in the order
in which they were added, and on to their end.
-/

set_option autoImplicit false

namespace GraphStore.Query

open Text

/-!
## Additions
-/

/-- A call that adds a node below the one in the place `parent`. -/
inductive Addition where
  | rule (parent : Nat) (rule : Rule) (position : Position)
  | token (parent : Nat) (token : Token)
deriving Repr, DecidableEq

namespace Addition

def parent : Addition → Nat
  | .rule parent _ _ => parent
  | .token parent _ => parent

/-- The node that is added, without links. -/
def node : Addition → TreeNode
  | .rule _ name position => .single (.rule name) none position
  | .token _ leaf => .single (.terminal leaf.kind) leaf.text leaf.position

def applyTo (tree : TokenTree) : Addition → TokenTree
  | .rule parent name position => tree.addRule parent name position
  | .token parent leaf => tree.addToken parent leaf

theorem applyTo_eq_insert (tree : TokenTree) (addition : Addition) :
    addition.applyTo tree = tree.insert TokenTree.shortPlace addition.parent addition.node.kind
      addition.node.text addition.node.position := by
  cases addition <;> rfl

/-- A place that 32 bits hold is linked as it is. -/
theorem applyTo_eq {tree : TokenTree} (few : tree.size < UInt32.size) (addition : Addition) :
    addition.applyTo tree =
      tree.insert id addition.parent addition.node.kind addition.node.text
        addition.node.position := by
  rw [applyTo_eq_insert, TokenTree.insert, TokenTree.shortPlace_of_lt few, TokenTree.insert, id_eq]

theorem single_node (addition : Addition) :
    .single addition.node.kind addition.node.text addition.node.position = addition.node := by
  cases addition <;> rfl

end Addition

/-- The places of the nodes that are added below a place. The first one that is added comes to the
place behind the root. -/
def placesBelow (additions : List Addition) (place : Nat) : List Nat :=
  (additions.zipIdx.filter fun entry => entry.1.parent = place).map fun entry => entry.2 + 1

/-- Whether each addition goes below the root or below a node that was added before it. -/
def AreRooted (additions : List Addition) : Prop :=
  ∀ entry ∈ additions.zipIdx, entry.1.parent ≤ entry.2
deriving Decidable

variable {additions front : List Addition} {addition last : Addition}

theorem placesBelow_concat (front : List Addition) (last : Addition) :
    placesBelow (front ++ [last]) =
      Function.update (placesBelow front) last.parent
        (placesBelow front last.parent ++ [front.length + 1]) := by
  funext place
  rw [placesBelow, List.zipIdx_append, List.filter_append, List.map_append, ← placesBelow]
  by_cases isParent : place = last.parent
  · subst isParent
    simp
  · simp [isParent, Ne.symm isParent]

theorem succ_mem_placesBelow_iff {place number : Nat} : number + 1 ∈ placesBelow additions place ↔
    ∃ addition, additions[number]? = some addition ∧ addition.parent = place := by
  simp [placesBelow, List.mem_zipIdx_iff_getElem?]

theorem zero_not_mem_placesBelow (additions : List Addition) (place : Nat) :
    0 ∉ placesBelow additions place := by
  simp [placesBelow]

theorem length_lt_of_concat {bound : Nat} (few : (front ++ [last]).length < bound) :
    front.length < bound := by
  rw [List.length_append, List.length_singleton] at few
  exact Nat.lt_of_succ_lt few

theorem AreRooted.of_concat (rooted : AreRooted (front ++ [last])) :
    AreRooted front ∧ last.parent ≤ front.length := by
  rw [AreRooted, List.zipIdx_append, List.forall_mem_append] at rooted
  simpa [AreRooted] using rooted

/-!
## Growth
-/

namespace TokenTree

variable {tree : TokenTree} {position : Position}

/-- The tree behind some additions. -/
def grow (tree : TokenTree) (additions : List Addition) : TokenTree :=
  additions.foldl Addition.applyTo tree

theorem size_grow_ofRoot (position : Position) (additions : List Addition) :
    ((ofRoot position).grow additions).size = additions.length + 1 := by
  induction additions using List.reverseRecOn with
  | nil => rfl
  | append_singleton front last ih =>
      rw [grow, List.foldl_concat, ← grow, last.applyTo_eq_insert, size_insert, ih,
        List.length_append, List.length_singleton]

theorem grow_concat (position : Position) (few : (front ++ [last]).length < UInt32.size) :
    (ofRoot position).grow (front ++ [last]) =
      ((ofRoot position).grow front).insert id last.parent last.node.kind last.node.text
        last.node.position := by
  have room : ((ofRoot position).grow front).size < UInt32.size := by
    rw [size_grow_ofRoot]
    simpa using few
  rw [← last.applyTo_eq room, grow, List.foldl_concat, ← grow]

/-- The links lead to the nodes added below each place. -/
theorem links_grow (position : Position) (rooted : AreRooted additions)
    (few : additions.length < UInt32.size) :
    Links ((ofRoot position).grow additions) (placesBelow additions) := by
  induction additions using List.reverseRecOn with
  | nil => exact .ofRoot position
  | append_singleton front last ih =>
      obtain ⟨frontRooted, inside⟩ := rooted.of_concat
      have size := size_grow_ofRoot position front
      have within : last.parent < ((ofRoot position).grow front).size := by omega
      rw [grow_concat position few, placesBelow_concat, ← size]
      exact (ih frontRooted (length_lt_of_concat few)).insert within _ _ _

theorem bare?_grow (position : Position) (rooted : AreRooted additions)
    (few : additions.length < UInt32.size) {number : Nat}
    (stands : additions[number]? = some addition) :
    ((ofRoot position).grow additions).bare? (number + 1) = some addition.node := by
  induction additions using List.reverseRecOn with
  | nil => cases stands
  | append_singleton front last ih =>
      obtain ⟨frontRooted, inside⟩ := rooted.of_concat
      have fewer := length_lt_of_concat few
      have size := size_grow_ofRoot position front
      rw [grow_concat position few, (links_grow position frontRooted fewer).bare?_insert (by omega),
        size]
      by_cases isLast : number = front.length
      · subst isLast
        rw [List.getElem?_concat_length] at stands
        cases stands
        rw [if_pos rfl, Addition.single_node]
      · have isFormer : number < front.length := by
          have bound := (List.getElem?_eq_some_iff.mp stands).1
          rw [List.length_append, List.length_singleton] at bound
          omega
        rw [List.getElem?_append_left isFormer] at stands
        rw [if_neg (by omega), ih frontRooted fewer stands]

/-- A link to a next sibling leads to a node that was added later. -/
theorem nextSibling_grow (position : Position) (rooted : AreRooted additions)
    (few : additions.length < UInt32.size) {place sibling : Nat}
    (leads : (((ofRoot position).grow additions).node? place).bind TreeNode.nextSibling =
      some sibling) :
    place < sibling ∧ sibling < ((ofRoot position).grow additions).size := by
  induction additions using List.reverseRecOn with
  | nil =>
      cases place with
      | zero => cases leads
      | succ place => cases leads
  | append_singleton front last ih =>
      obtain ⟨frontRooted, inside⟩ := rooted.of_concat
      have fewer := length_lt_of_concat few
      have size := size_grow_ofRoot position front
      have links := links_grow position frontRooted fewer
      have within : last.parent < ((ofRoot position).grow front).size := by omega
      rw [grow_concat position few, size_insert]
      rw [grow_concat position few] at leads
      rcases Nat.lt_trichotomy place ((ofRoot position).grow front).size
        with former | isNew | beyond
      · rw [links.nextSibling_insert within former] at leads
        split at leads
        · cases leads
          exact ⟨former, Nat.lt_succ_self _⟩
        · obtain ⟨later, bound⟩ := ih frontRooted fewer leads
          exact ⟨later, Nat.lt_succ_of_lt bound⟩
      · rw [links.node?_insert within, if_pos isNew] at leads
        cases leads
      · rw [node?_eq_none_of_size_le (by rw [size_insert]; omega)] at leads
        cases leads

/-!
## Ways to the end
-/

/-- The places that the links to next siblings pass, from some place on until there is no link. -/
inductive Follows (tree : TokenTree) : Option Nat → List Nat → Prop where
  | ended : Follows tree none []
  | next {place : Nat} {rest : List Nat}
      (onward : Follows tree ((tree.node? place).bind TreeNode.nextSibling) rest) :
      Follows tree (some place) (place :: rest)

theorem Links.follows {below : Nat → List Nat} (links : Links tree below) {place : Nat}
    {front rest : List Nat} (split : below place = front ++ rest) :
    Follows tree rest.head? rest := by
  induction rest generalizing front with
  | nil => exact .ended
  | cons child rest ih =>
      rw [List.head?_cons]
      refine .next ?_
      rw [links.next place front child rest split]
      rw [List.append_cons] at split
      exact ih split

/-- What the node in a place is shown as, with all below it. -/
inductive Renders (tree : TokenTree) : Nat → String → Prop where
  | rule {place : Nat} {node : TreeNode} {rule : Rule} {below : List Nat} {shown : Nat → String}
      (stands : tree.node? place = some node) (isRule : node.kind = .rule rule)
      (follows : Follows tree node.firstChild below)
      (each : ∀ child ∈ below, Renders tree child (shown child)) :
      Renders tree place
        ("(" ++ rule.label ++ String.join (below.map fun child => " " ++ shown child) ++ ")")
  | string {place : Nat} {node : TreeNode} (stands : tree.node? place = some node)
      (isString : node.kind = .terminal .string) : Renders tree place (quoted node.content)
  | token {place : Nat} {node : TreeNode} {kind : TokenKind} (stands : tree.node? place = some node)
      (isToken : node.kind = .terminal kind) (noString : kind ≠ .string) :
      Renders tree place node.content

theorem IsLinked.renders (linked : tree.IsLinked) {depth place : Nat} (inside : place < tree.size)
    (enough : tree.size ≤ depth + place) : Renders tree place (tree.renderFrom depth place) := by
  induction depth generalizing place with
  | zero => omega
  | succ depth ih =>
      obtain ⟨node, stands⟩ : ∃ node, tree.node? place = some node :=
        Option.isSome_iff_exists.mp (by simpa [node?, size] using inside)
      rw [renderFrom, stands]
      dsimp only
      cases isKind : node.kind with
      | rule rule =>
          refine .rule stands isKind ?_ fun child member => ?_
          · have first := Links.first linked place
            rw [stands, Option.bind_some] at first
            rw [first]
            exact Links.follows linked (List.nil_append _).symm
          · -- A child stands behind its parent, so fewer levels are left below it.
            obtain ⟨above, within⟩ := Links.inside linked place child member
            exact ih within (by omega)
      | terminal kind =>
          cases kind
          case string => exact .string stands isKind
          all_goals exact .token stands isKind (by decide)

/-- A tree that was grown by some additions, with its links: which children they lead to, and how
they end. -/
structure Encodes (tree : TokenTree) (additions : List Addition) : Prop where
  size : tree.size = additions.length + 1
  bare? : ∀ (number : Nat) (addition : Addition), additions[number]? = some addition →
    tree.bare? (number + 1) = some addition.node
  children : ∀ place, tree.children place = placesBelow additions place
  root_no_child : ∀ parent, 0 ∉ tree.children parent
  once : ∀ place, 0 < place → place < tree.size → ∃ parent, (tree.children parent).count place = 1 ∧
    ∀ other, other ≠ parent → place ∉ tree.children other
  first_ascends : ∀ place node child, tree.node? place = some node → node.firstChild = some child →
    place < child ∧ child < tree.size
  next_ascends : ∀ place node sibling, tree.node? place = some node →
    node.nextSibling = some sibling → place < sibling ∧ sibling < tree.size
  follows : ∀ place,
    Follows tree ((tree.node? place).bind TreeNode.firstChild) (tree.children place)
  renders : Renders tree 0 tree.render

theorem encodes_grow (position : Position) (rooted : AreRooted additions)
    (few : additions.length < UInt32.size) :
    Encodes ((ofRoot position).grow additions) additions := by
  have links := links_grow position rooted few
  have children := links.children_eq
  have first (place : Nat) : (((ofRoot position).grow additions).node? place).bind
      TreeNode.firstChild = (placesBelow additions place).head? := links.first place
  constructor
  case size => exact size_grow_ofRoot position additions
  case bare? => exact fun _ _ => bare?_grow position rooted few
  case children => exact children
  case root_no_child =>
    intro parent
    rw [children]
    exact zero_not_mem_placesBelow additions parent
  case once =>
    intro place positive inside
    obtain ⟨number, rfl⟩ := Nat.exists_eq_succ_of_ne_zero (Nat.ne_of_gt positive)
    rw [size_grow_ofRoot] at inside
    have stands := List.getElem?_eq_getElem (Nat.lt_of_succ_lt_succ inside)
    have member := succ_mem_placesBelow_iff.mpr ⟨_, stands, rfl⟩
    have distinct := (links.ascending additions[number].parent).imp Nat.ne_of_lt
    refine ⟨additions[number].parent, ?_, fun other different elsewhere => ?_⟩
    · rw [children]
      exact List.count_eq_one_of_mem distinct member
    · rw [children] at elsewhere
      exact different (links.apart other _ _ elsewhere member)
  case first_ascends =>
    intro place node child stands leads
    have here := first place
    rw [stands, Option.bind_some, leads] at here
    exact links.inside place child (List.mem_of_head? here.symm)
  case next_ascends =>
    intro place node sibling stands leads
    refine nextSibling_grow position rooted few ?_
    rw [stands, Option.bind_some, leads]
  case follows =>
    intro place
    rw [first, children]
    exact links.follows (List.nil_append _).symm
  case renders =>
    refine links.isLinked.renders ?_ (Nat.le_refl _)
    rw [size_grow_ofRoot]
    exact Nat.succ_pos _

/-- Nodes that are added below nodes in any order, while 32 bits hold their places, make a tree
whose links lead from each node to the nodes that were added below it. One node more leaves what is
known of the others and the children of all but its parent as they are. -/
theorem grow_encodes_additions (position : Position) (rooted : AreRooted additions)
    (few : additions.length < UInt32.size) :
    let tree := (ofRoot position).grow additions
    Encodes tree additions ∧
      ∀ addition : Addition, addition.parent < tree.size → tree.size < UInt32.size →
        (∀ place < tree.size, (addition.applyTo tree).bare? place = tree.bare? place) ∧
          ∀ place, (addition.applyTo tree).children place =
            if place = addition.parent then tree.children place ++ [tree.size]
            else tree.children place := by
  intro tree
  have linked : tree.IsLinked := (links_grow position rooted few).isLinked
  refine ⟨encodes_grow position rooted few, fun addition within room => ?_⟩
  rw [addition.applyTo_eq room]
  refine ⟨fun place inside => ?_, fun place => ?_⟩
  · rw [Links.bare?_insert linked within, if_neg (Nat.ne_of_lt inside)]
  · rw [linked.children_insert within]
    by_cases isParent : place = addition.parent
    · rw [if_pos isParent, if_pos isParent, isParent]
    · rw [if_neg isParent, if_neg isParent]

/-- Two lists that grow by turns. -/
theorem grow_encodes_additions_by_turns :
    let additions : List Addition :=
      [.rule 0 .labelArray ⟨1, 1⟩, .rule 0 .propertyList ⟨1, 2⟩,
        .token 1 ⟨.string, some "A", ⟨1, 3⟩⟩, .token 2 ⟨.number, some "7", ⟨1, 4⟩⟩,
        .token 1 ⟨.string, some "B", ⟨1, 5⟩⟩]
    let last : Addition := .token 1 ⟨.string, none, ⟨1, 6⟩⟩
    let tree := (ofRoot .start).grow additions
    AreRooted additions ∧ tree.children 0 = [1, 2] ∧ tree.children 1 = [3, 5] ∧
      tree.children 2 = [4] ∧ Renders tree 0 tree.render ∧ last.parent < tree.size ∧
      (last.applyTo tree).children 1 = [3, 5, 6] := by
  intro additions last tree
  have rooted : AreRooted additions := by decide
  obtain ⟨encodes, more⟩ := grow_encodes_additions .start rooted (by decide)
  have children (place : Nat) : tree.children place = placesBelow additions place :=
    encodes.children place
  have size : tree.size = 6 := encodes.size
  have within : last.parent < tree.size := by
    rw [size]
    decide
  have room : tree.size < UInt32.size := by
    rw [size]
    decide
  refine ⟨rooted, children 0, children 1, children 2, encodes.renders, within, ?_⟩
  have here : (1 : Nat) = last.parent := rfl
  calc
    (last.applyTo tree).children 1 = tree.children 1 ++ [tree.size] := by
      rw [(more last within room).2, if_pos here]
    _ = [3, 5, 6] := by
      rw [children, size]
      rfl

end TokenTree

end GraphStore.Query
