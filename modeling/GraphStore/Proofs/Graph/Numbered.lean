import GraphStore.Graph.Basic

/-!
# Values in the order of their numbers

Values that are put in with ascending numbers stand one behind the other, so that a graph holds nodes
in the order in which they were made.
-/

set_option autoImplicit false

namespace GraphStore

namespace ById

variable {α : Type}

theorem place_of_lt {entry : RecordId × α} {entries : List (RecordId × α)}
    (above : ∀ other ∈ entries, other.1 < entry.1) : place entry entries = entries ++ [entry] := by
  induction entries with
  | nil => rfl
  | cons first rest ih =>
      obtain ⟨here, behind⟩ := List.forall_mem_cons.mp above
      rw [place, if_neg (UInt32.not_lt.mpr (UInt32.le_of_lt here)),
        if_neg (Ne.symm (UInt32.ne_of_lt here)), ih behind, List.cons_append]

/-- Values that come in ascending order are put in one behind the other. -/
theorem entries_foldl_insert (entries : List (RecordId × α)) (front : ById α)
    (ascending : (front.entries ++ entries).Pairwise fun first second => first.1 < second.1) :
    (entries.foldl (fun values entry => values.insert entry.1 entry.2) front).entries =
      front.entries ++ entries := by
  induction entries generalizing front with
  | nil => rw [List.foldl_nil, List.append_nil]
  | cons entry rest ih =>
      have above : ∀ other ∈ front.entries, other.1 < entry.1 := fun other member =>
        (List.pairwise_append.mp ascending).2.2 other member entry List.mem_cons_self
      have inserted : (front.insert entry.1 entry.2).entries = front.entries ++ [entry] :=
        place_of_lt above
      rw [List.foldl_cons, ih _ (by rwa [inserted, List.append_assoc]), inserted, List.append_assoc]
      rfl

theorem foldl_insert_entries (values : ById α) :
    values.entries.foldl (fun values entry => values.insert entry.1 entry.2) empty = values := by
  obtain ⟨entries, ascending⟩ := values
  have same := entries_foldl_insert entries empty ascending
  cases whole : entries.foldl (fun values entry => values.insert entry.1 entry.2) empty
  rw [whole] at same
  cases same
  rfl

end ById

/-- Nodes with ascending numbers above those of a graph all find their own places. -/
theorem Graph.foldl_withNode {entries : List (RecordId × Node)} (graph : Graph)
    (numbered : ∀ entry ∈ entries, entry.2.id = some entry.1)
    (ascending : (graph.nodes.entries ++ entries).Pairwise fun first second => first.1 < second.1) :
    ((entries.map Prod.snd).foldl Graph.withNode graph).nodes.entries =
        graph.nodes.entries ++ entries ∧
      ((entries.map Prod.snd).foldl Graph.withNode graph).relationships = graph.relationships := by
  have same : (entries.map Prod.snd).foldl Graph.withNode graph = {
      graph with
      nodes := entries.foldl (fun values entry => values.insert entry.1 entry.2) graph.nodes } := by
    clear ascending
    induction entries generalizing graph with
    | nil => rfl
    | cons entry rest ih =>
        obtain ⟨here, behind⟩ := List.forall_mem_cons.mp numbered
        rw [List.map_cons, List.foldl_cons, ih _ behind, Graph.withNode, here]
        rfl
  rw [same]
  exact ⟨ById.entries_foldl_insert entries graph.nodes ascending, rfl⟩

end GraphStore
