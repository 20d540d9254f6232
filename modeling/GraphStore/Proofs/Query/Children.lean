import GraphStore.Query.Tree
import Mathlib.Data.List.Nodup
import Mathlib.Data.List.Perm.Subperm
import Mathlib.Data.List.Range
import Mathlib.Logic.Function.Basic

/-!
# Children in one table

Which children the links of a tree lead to. Main statement: adding a node puts its place behind the
children of its parent and leaves the children of all other nodes, and what is known of each node
apart from its links, as they are.
-/

set_option autoImplicit false

namespace GraphStore.Query

/-- A node as it was added, without its links. -/
def TreeNode.bare (node : TreeNode) : TreeNode := .single node.kind node.text node.position

namespace TokenTree

def bare? (tree : TokenTree) (place : Nat) : Option TreeNode :=
  (tree.node? place).map TreeNode.bare

section

variable {tree : TokenTree} {parent place : Nat} {kind : TreeKind} {text : Option String}
  {position : Position}

/-- A node with the links that it has once a child is added in place `child` below `parent`, behind
the one in place `last`. -/
private def linkedNode (parent child : Nat) (last : Option Nat) (place : Nat) (node : TreeNode) :
    TreeNode :=
  { node with
    firstChild := if place = parent && last.isNone then some child else node.firstChild
    lastChild := if place = parent then some child else node.lastChild
    nextSibling := if last = some place then some child else node.nextSibling }

private theorem getElem?_link (nodes : Array TreeNode) (parent child place : Nat) :
    (link nodes parent child)[place]? =
      nodes[place]?.map
        (linkedNode parent child ((nodes[parent]?).bind TreeNode.lastChild) place) := by
  unfold link
  cases (nodes[parent]?).bind TreeNode.lastChild with
  | none =>
      simp only [Array.getElem?_modify]
      by_cases isParent : parent = place
      · cases nodes[place]? <;> simp [isParent, linkedNode]
      · cases nodes[place]? <;> simp [isParent, Ne.symm isParent, linkedNode]
  | some last =>
      simp only [Array.getElem?_modify]
      by_cases isParent : parent = place
      · by_cases isLast : last = place
        · cases nodes[place]? <;> simp [isParent, isLast, linkedNode]
        · cases nodes[place]? <;> simp [isParent, isLast, linkedNode]
      · by_cases isLast : last = place
        · cases nodes[place]? <;> simp [isParent, Ne.symm isParent, isLast, linkedNode]
        · cases nodes[place]? <;> simp [isParent, Ne.symm isParent, isLast, linkedNode]

@[simp] theorem size_insert (number : Nat → Nat) :
    (tree.insert number parent kind text position).size = tree.size + 1 := by
  simp only [insert, link, size]
  split <;> simp

/-- Links hold a place as it is as long as 32 bits can. -/
theorem shortPlace_of_lt (few : place < UInt32.size) : shortPlace place = place :=
  UInt32.toNat_ofNat_of_lt' few

theorem node?_eq_none_of_size_le (outside : tree.size ≤ place) : tree.node? place = none :=
  Array.getElem?_eq_none outside

end

/-!
## Links
-/

/-- The links of a tree lead to the children `below place` of the node in each place. -/
structure Links (tree : TokenTree) (below : Nat → List Nat) : Prop where
  first : ∀ place, (tree.node? place).bind TreeNode.firstChild = (below place).head?
  last : ∀ place, (tree.node? place).bind TreeNode.lastChild = (below place).getLast?
  next : ∀ place front child rest, below place = front ++ child :: rest →
    (tree.node? child).bind TreeNode.nextSibling = rest.head?
  ascending : ∀ place, (below place).Pairwise (· < ·)
  inside : ∀ place, ∀ child ∈ below place, place < child ∧ child < tree.size
  apart : ∀ place other child, child ∈ below place → child ∈ below other → place = other

namespace Links

variable {tree : TokenTree} {below : Nat → List Nat}

theorem below_eq_nil (links : Links tree below) {place : Nat} (outside : tree.size ≤ place) :
    below place = [] := by
  have first := links.first place
  rw [node?_eq_none_of_size_le outside] at first
  exact List.head?_eq_none_iff.mp first.symm

theorem length_le (links : Links tree below) (place : Nat) : (below place).length ≤ tree.size := by
  have distinct : (below place).Nodup := (links.ascending place).imp Nat.ne_of_lt
  have inside : below place ⊆ List.range tree.size := fun child member =>
    List.mem_range.mpr (links.inside place child member).2
  simpa using (List.Nodup.subperm distinct inside).length_le

/-- Following the links from a child on passes the children from there on. -/
theorem chain_eq (links : Links tree below) {place : Nat} {front rest : List Nat}
    (split : below place = front ++ rest) {steps : Nat} (enough : rest.length ≤ steps) :
    tree.chain steps rest.head? = rest := by
  induction rest generalizing front steps with
  | nil => cases steps <;> rfl
  | cons child rest ih =>
      cases steps with
      | zero => cases enough
      | succ steps =>
          rw [List.head?_cons, chain, links.next place front child rest split]
          rw [List.append_cons] at split
          rw [ih split (Nat.le_of_succ_le_succ enough)]

theorem children_eq (links : Links tree below) (place : Nat) : tree.children place = below place := by
  rw [children, links.first place]
  exact links.chain_eq (List.nil_append _).symm (links.length_le place)

theorem ofRoot (position : Position) : Links (TokenTree.ofRoot position) fun _ => [] where
  first place := by cases place <;> rfl
  last place := by cases place <;> rfl
  next := by
    intro place front child rest split
    cases front <;> cases split
  ascending _ := .nil
  inside _ _ member := by cases member
  apart _ _ _ member := by cases member

/-- The nodes of a tree with one node more: the new one stands behind all others, and of the others
only its parent and the last child so far have new links. -/
theorem node?_insert (links : Links tree below) {parent : Nat} (within : parent < tree.size)
    (kind : TreeKind) (text : Option String) (position : Position) (place : Nat) :
    (tree.insert id parent kind text position).node? place =
      if place = tree.size then some (.single kind text position)
      else (tree.node? place).map
        (linkedNode parent tree.size (below parent).getLast? place) := by
  have pushed (other : Nat) : (tree.nodes.push (.single kind text position))[other]? =
      if other = tree.size then some (.single kind text position) else tree.node? other :=
    Array.getElem?_push
  rw [TokenTree.insert, id_eq, node?, getElem?_link, pushed parent, if_neg (Nat.ne_of_lt within),
    links.last parent, pushed place]
  by_cases isNew : place = tree.size
  · subst isNew
    have notLast : (below parent).getLast? ≠ some tree.size := fun isLast =>
      Nat.lt_irrefl _ (links.inside parent _ (List.mem_of_getLast? isLast)).2
    simp [linkedNode, Ne.symm (Nat.ne_of_lt within), notLast]
  · rw [if_neg isNew, if_neg isNew]

theorem bare?_insert (links : Links tree below) {parent : Nat} (within : parent < tree.size)
    (kind : TreeKind) (text : Option String) (position : Position) (place : Nat) :
    (tree.insert id parent kind text position).bare? place =
      if place = tree.size then some (.single kind text position) else tree.bare? place := by
  rw [bare?, links.node?_insert within]
  by_cases isNew : place = tree.size
  · rw [if_pos isNew, if_pos isNew]
    rfl
  · rw [if_neg isNew, if_neg isNew, Option.map_map]
    rfl

theorem nextSibling_insert (links : Links tree below) {parent : Nat} (within : parent < tree.size)
    {kind : TreeKind} {text : Option String} {position : Position} {child : Nat}
    (inside : child < tree.size) :
    ((tree.insert id parent kind text position).node? child).bind TreeNode.nextSibling =
      if (below parent).getLast? = some child then some tree.size
      else (tree.node? child).bind TreeNode.nextSibling := by
  have isThere : (tree.node? child).isSome := by simpa [node?, size] using inside
  obtain ⟨node, found⟩ := Option.isSome_iff_exists.mp isThere
  rw [links.node?_insert within, if_neg (Nat.ne_of_lt inside), found]
  rfl

private theorem mem_update {below : Nat → List Nat} {parent latest place child : Nat} :
    child ∈ Function.update below parent (below parent ++ [latest]) place ↔
      child ∈ below place ∨ place = parent ∧ child = latest := by
  by_cases isParent : place = parent
  · subst isParent
    simp
  · simp [isParent]

/-- A new node is the last child of its parent. -/
theorem insert (links : Links tree below) {parent : Nat} (within : parent < tree.size)
    (kind : TreeKind) (text : Option String) (position : Position) :
    Links (tree.insert id parent kind text position)
      (Function.update below parent (below parent ++ [tree.size])) := by
  have childless : below tree.size = [] := links.below_eq_nil (Nat.le_refl _)
  have notParent : tree.size ≠ parent := Ne.symm (Nat.ne_of_lt within)
  have isThere : (tree.node? parent).isSome := by simpa [node?, size] using within
  constructor
  case first =>
    intro place
    have first := links.first place
    rw [links.node?_insert within]
    by_cases isNew : place = tree.size
    · subst isNew
      simp [TreeNode.single, childless, notParent]
    · by_cases isParent : place = parent
      · subst isParent
        obtain ⟨node, found⟩ := Option.isSome_iff_exists.mp isThere
        cases children : below place <;> simp_all [linkedNode]
      · cases found : tree.node? place <;> simp_all [linkedNode]
  case last =>
    intro place
    have last := links.last place
    rw [links.node?_insert within]
    by_cases isNew : place = tree.size
    · subst isNew
      simp [TreeNode.single, childless, notParent]
    · by_cases isParent : place = parent
      · subst isParent
        obtain ⟨node, found⟩ := Option.isSome_iff_exists.mp isThere
        simp_all [linkedNode]
      · cases found : tree.node? place <;> simp_all [linkedNode]
  case next =>
    intro place front child rest split
    by_cases isParent : place = parent
    · subst isParent
      rw [Function.update_self] at split
      cases rest using List.reverseRecOn with
      | nil =>
          obtain ⟨-, same⟩ := List.append_inj' split rfl
          cases same
          rw [links.node?_insert within, if_pos rfl]
          rfl
      | append_singleton rest latest =>
          have longer : front ++ child :: (rest ++ [latest]) = (front ++ child :: rest) ++ [latest] := by
            simp
          rw [longer] at split
          obtain ⟨children, same⟩ := List.append_inj' split rfl
          cases same
          rw [links.nextSibling_insert within (links.inside place child (by simp [children])).2]
          cases rest with
          | nil => simp [children]
          | cons following rest =>
              rw [if_neg, links.next place front child _ children]
              · rfl
              · intro isLast
                have ascending := links.ascending place
                rw [children, List.pairwise_append] at ascending
                rw [children, List.getLast?_append_of_ne_nil _ (List.cons_ne_nil _ _),
                  List.getLast?_cons_cons] at isLast
                have above := (List.pairwise_cons.mp ascending.2.1).1
                exact Nat.lt_irrefl _ (above child (List.mem_of_getLast? isLast))
    · rw [Function.update_of_ne isParent] at split
      have member : child ∈ below place := by simp [split]
      rw [links.nextSibling_insert within (links.inside place child member).2, if_neg]
      · exact links.next place front child rest split
      · exact fun isLast =>
          isParent (links.apart place parent child member (List.mem_of_getLast? isLast))
  case ascending =>
    intro place
    by_cases isParent : place = parent
    · subst isParent
      rw [Function.update_self, List.pairwise_append]
      refine ⟨links.ascending place, List.pairwise_singleton _ _, ?_⟩
      intro child member latest isLatest
      rw [List.mem_singleton.mp isLatest]
      exact (links.inside place child member).2
    · rw [Function.update_of_ne isParent]
      exact links.ascending place
  case inside =>
    intro place child member
    rw [size_insert]
    rcases mem_update.mp member with former | ⟨rfl, rfl⟩
    · obtain ⟨above, inside⟩ := links.inside place child former
      exact ⟨above, Nat.lt_succ_of_lt inside⟩
    · exact ⟨within, Nat.lt_succ_self _⟩
  case apart =>
    intro place other child member otherMember
    rcases mem_update.mp member with former | ⟨rfl, rfl⟩
    · rcases mem_update.mp otherMember with otherFormer | ⟨rfl, rfl⟩
      · exact links.apart place other child former otherFormer
      · exact absurd (links.inside place _ former).2 (Nat.lt_irrefl _)
    · rcases mem_update.mp otherMember with otherFormer | ⟨rfl, -⟩
      · exact absurd (links.inside other _ otherFormer).2 (Nat.lt_irrefl _)
      · rfl

end Links

/-!
## Linked trees
-/

/-- The links of the tree lead from each node to children of its own. -/
def IsLinked (tree : TokenTree) : Prop := Links tree tree.children

section

variable {tree : TokenTree} {parent place child : Nat}

theorem Links.isLinked {below : Nat → List Nat} (links : Links tree below) : tree.IsLinked := by
  have same : tree.children = below := funext links.children_eq
  rwa [IsLinked, same]

theorem isLinked_ofRoot (position : Position) : (ofRoot position).IsLinked :=
  (Links.ofRoot position).isLinked

theorem IsLinked.insert (linked : tree.IsLinked) (within : parent < tree.size) (kind : TreeKind)
    (text : Option String) (position : Position) :
    (tree.insert id parent kind text position).IsLinked :=
  (Links.insert linked within kind text position).isLinked

theorem IsLinked.children_insert (linked : tree.IsLinked) (within : parent < tree.size)
    (kind : TreeKind) (text : Option String) (position : Position) (place : Nat) :
    (tree.insert id parent kind text position).children place =
      if place = parent then tree.children parent ++ [tree.size] else tree.children place := by
  rw [(Links.insert linked within kind text position).children_eq, Function.update_apply]

/-!
## Grafts
-/

/-- A tree that has grown below the node in place `parent`, which has the children `new` in addition
to those it had. -/
structure Grafts (tree : TokenTree) (parent : Nat) (new : List Nat) (grown : TokenTree) : Prop where
  linked : grown.IsLinked
  size_le : tree.size ≤ grown.size
  bare? : ∀ place < tree.size, grown.bare? place = tree.bare? place
  children : ∀ place < tree.size, grown.children place =
    if place = parent then tree.children parent ++ new else tree.children place

namespace Grafts

variable {grown later : TokenTree} {new newer : List Nat} {inner : Nat}

protected theorem refl (linked : tree.IsLinked) (parent : Nat) : Grafts tree parent [] tree where
  linked := linked
  size_le := Nat.le_refl _
  bare? _ _ := rfl
  children place _ := by
    split
    · next isParent => rw [isParent, List.append_nil]
    · rfl

theorem of_insert (linked : tree.IsLinked) (within : parent < tree.size) (kind : TreeKind)
    (text : Option String) (position : Position) :
    Grafts tree parent [tree.size] (tree.insert id parent kind text position) where
  linked := linked.insert within kind text position
  size_le := by simp
  bare? place inside := by
    rw [Links.bare?_insert linked within, if_neg (Nat.ne_of_lt inside)]
  children place _ := linked.children_insert within kind text position place

theorem trans (within : parent < tree.size) (grafts : Grafts tree parent new grown)
    (others : Grafts grown parent newer later) : Grafts tree parent (new ++ newer) later where
  linked := others.linked
  size_le := Nat.le_trans grafts.size_le others.size_le
  bare? place inside := by
    rw [others.bare? place (Nat.lt_of_lt_of_le inside grafts.size_le), grafts.bare? place inside]
  children place inside := by
    rw [others.children place (Nat.lt_of_lt_of_le inside grafts.size_le),
      grafts.children place inside, grafts.children parent within]
    by_cases isParent : place = parent
    · simp [isParent]
    · simp [isParent]

/-- What grows below a new node is no change of the nodes that were there. -/
theorem deeper (grafts : Grafts tree parent new grown) (above : tree.size ≤ inner)
    (others : Grafts grown inner newer later) : Grafts tree parent new later where
  linked := others.linked
  size_le := Nat.le_trans grafts.size_le others.size_le
  bare? place inside := by
    rw [others.bare? place (Nat.lt_of_lt_of_le inside grafts.size_le), grafts.bare? place inside]
  children place inside := by
    rw [others.children place (Nat.lt_of_lt_of_le inside grafts.size_le), if_neg (by omega),
      grafts.children place inside]

end Grafts

end

end TokenTree

end GraphStore.Query
