import GraphStore.Graph.Node
import GraphStore.Graph.Relationship

/-!
# Graphs

Stored nodes and relationships by their numbers. A graph is a value: adding to it gives a new one.
-/

set_option autoImplicit false

namespace GraphStore

/-- Values by number, in ascending order of the numbers. -/
structure ById (α : Type) where
  entries : List (RecordId × α)
  ascending : entries.Pairwise fun first second => first.1 < second.1
deriving Repr, DecidableEq

namespace ById

variable {α : Type}

def empty : ById α := ⟨[], .nil⟩

instance : Inhabited (ById α) := ⟨empty⟩

/-- Puts an entry into a list in ascending order, in the place of the one with its number. -/
def place (entry : RecordId × α) : List (RecordId × α) → List (RecordId × α)
  | [] => [entry]
  | first :: rest =>
      if entry.1 < first.1 then entry :: first :: rest
      else if entry.1 = first.1 then entry :: rest
      else first :: place entry rest

theorem mem_place {entry found : RecordId × α} {entries : List (RecordId × α)}
    (member : found ∈ place entry entries) : found = entry ∨ found ∈ entries := by
  induction entries with
  | nil => simpa [place] using member
  | cons first rest ih => grind [place]

theorem pairwise_place (entry : RecordId × α) {entries : List (RecordId × α)}
    (ascending : entries.Pairwise fun first second => first.1 < second.1) :
    (place entry entries).Pairwise fun first second => first.1 < second.1 := by
  induction entries with
  | nil => simp [place]
  | cons first rest ih =>
      obtain ⟨below, ordered⟩ := List.pairwise_cons.1 ascending
      unfold place
      split
      next less =>
        refine List.pairwise_cons.2 ⟨fun other member => ?_, ascending⟩
        rcases List.mem_cons.1 member with rfl | member
        · exact less
        · exact UInt32.lt_trans less (below other member)
      next notLess =>
        split
        next same => exact List.pairwise_cons.2 ⟨same ▸ below, ordered⟩
        next differs =>
          have greater : first.1 < entry.1 :=
            UInt32.lt_of_le_of_ne (UInt32.not_lt.1 notLess) (Ne.symm differs)
          refine List.pairwise_cons.2 ⟨fun other member => ?_, ih ordered⟩
          rcases mem_place member with rfl | member
          · exact greater
          · exact below other member

/-- Puts a value under a number, in the place of the one that is there. -/
def insert (id : RecordId) (value : α) (values : ById α) : ById α :=
  ⟨place (id, value) values.entries, pairwise_place _ values.ascending⟩

def find? (id : RecordId) (values : ById α) : Option α :=
  (values.entries.find? fun entry => entry.1 == id).map Prod.snd

theorem find?_insert_self (id : RecordId) (value : α) (values : ById α) :
    (values.insert id value).find? id = some value := by
  obtain ⟨entries, _⟩ := values
  simp only [find?, insert]
  induction entries with
  | nil => simp [place]
  | cons first rest ih => grind [place]

theorem find?_insert_of_ne {id other : RecordId} (differs : other ≠ id) (value : α)
    (values : ById α) : (values.insert id value).find? other = values.find? other := by
  obtain ⟨entries, _⟩ := values
  simp only [find?, insert]
  induction entries with
  | nil => simp [place, differs.symm]
  | cons first rest ih => grind [place]

def ids (values : ById α) : List RecordId := values.entries.map Prod.fst

def toJson (encode : α → Json) (values : ById α) : Json :=
  .ofMembers (values.entries.map fun entry => (toString entry.1.toNat, encode entry.2))

/-- Reads values by number. A number is written between quotes as it is anywhere else, without
escapes, sign or leading zeros. -/
def ofJson? (decode? : Json → Option α) : Json → Option (ById α)
  | .object members =>
      members.foldlM (fun values member => do
        let digits := member.1.written
        let number ← Text.parseDigits? digits
        if digits.head? = some '0' && 1 < digits.length then failure
        let id ← Text.below? 0x100000000 number
        return values.insert (UInt32.ofNat id) (← decode? member.2)) empty
  | _ => none

end ById

/-- A collection of stored nodes and relationships. -/
structure Graph where
  nodes : ById Node
  relationships : ById Relationship
deriving Repr, DecidableEq, Inhabited

namespace Graph

/-- The graph without nodes and relationships. -/
def empty : Graph := ⟨.empty, .empty⟩

/-- The graph that also holds `node`. A node without a number is left out. -/
def withNode (graph : Graph) (node : Node) : Graph :=
  match node.id with
  | some id => { graph with nodes := graph.nodes.insert id node }
  | none => graph

/-- The graph that also holds `relationship`. A relationship without a number is left out. -/
def withRelationship (graph : Graph) (relationship : Relationship) : Graph :=
  match relationship.id with
  | some id => { graph with relationships := graph.relationships.insert id relationship }
  | none => graph

def node? (graph : Graph) (id : RecordId) : Option Node := graph.nodes.find? id

def relationship? (graph : Graph) (id : RecordId) : Option Relationship :=
  graph.relationships.find? id

def toJson (graph : Graph) : Json :=
  .ofMembers
    [("nodes", graph.nodes.toJson Node.toJson),
      ("relationships", graph.relationships.toJson Relationship.toJson)]

def ofJson? (json : Json) : Option Graph :=
  match json.fields? ["nodes", "relationships"] with
  | some [some nodes, some relationships] => do
      return {
        nodes := ← ById.ofJson? Node.ofJson? nodes
        relationships := ← ById.ofJson? Relationship.ofJson? relationships }
  | _ => none

end Graph

end GraphStore
