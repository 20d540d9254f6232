import GraphStore.Proofs.Engine.Nodes

/-!
# Storing a relationship

Main statement: whatever happens while a relationship is stored, the records are those of the graph
without it, or with it in the chains of none, of one or of both of its nodes.
-/

set_option autoImplicit false

namespace GraphStore

open StoredRecord

/-!
## Linked records
-/

/-- The records behind a change of links, in which the former first one of a node points back at a
new one. -/
def linkedBack (records : List RelationshipRecord) (node : RecordId) (former : Option RecordId)
    (id : RecordId) : List RelationshipRecord :=
  match former with
  | none => records
  | some head => records.modify head.toNat fun record => record.setPrevious node (some id)

/-- The records behind a change of a node, which now points at a new relationship. -/
def headed (records : List NodeRecord) (node id : RecordId) : List NodeRecord :=
  records.modify node.toNat fun record => { record with relationships := some id }

/-- Whether some records came from others by a new relationship, which is linked in the chains of
both its nodes. -/
structure Joins (before stores : Stores) (record : RelationshipRecord) : Prop where
  room : (before .relationship).length + 1 < RecordFile.idLimit
  previous : record.firstPrevious = none ∧ record.secondPrevious = none
  source : ∃ node, (before .node)[record.first.toNat]? = some node ∧
    record.firstNext = node.relationships
  target : ∃ node, (before .node)[record.second.toNat]? = some node ∧
    record.secondNext = node.relationships
  relationships : stores .relationship =
    linkedBack
      (linkedBack (before .relationship ++ [record]) record.first record.firstNext
        (UInt32.ofNat (before .relationship).length))
      record.second record.secondNext (UInt32.ofNat (before .relationship).length)
  nodes : stores .node =
    headed (headed (before .node) record.first (UInt32.ofNat (before .relationship).length))
      record.second (UInt32.ofNat (before .relationship).length)

theorem Joins.of_enriches {before middle stores : Stores} {record : RelationshipRecord}
    (joins : Joins middle stores record) (enriched : Enriches before middle) :
    Joins before stores record where
  room := enriched.relationship ▸ joins.room
  previous := joins.previous
  source := enriched.node ▸ joins.source
  target := enriched.node ▸ joins.target
  relationships := enriched.relationship ▸ joins.relationships
  nodes := enriched.node ▸ enriched.relationship ▸ joins.nodes

/-- Whether records of nodes and relationships alone were changed. -/
def SameOthers (before stores : Stores) : Prop :=
  ∀ kind : StoreKind, kind ≠ .node → kind ≠ .relationship → stores kind = before kind

theorem SameOthers.trans {before middle stores : Stores} (first : SameOthers before middle)
    (second : SameOthers middle stores) : SameOthers before stores :=
  fun kind noNode noRelationship =>
    (second kind noNode noRelationship).trans (first kind noNode noRelationship)

section

variable {records : List RelationshipRecord} {node id : RecordId} {former : Option RecordId}

@[simp] theorem length_linkedBack : (linkedBack records node former id).length = records.length := by
  cases former <;> simp [linkedBack]

theorem getElem?_linkedBack (number : Nat) :
    (linkedBack records node former id)[number]? =
      if former.map UInt32.toNat = some number then
        records[number]?.map fun record => record.setPrevious node (some id)
      else records[number]? := by
  cases former with
  | none => rfl
  | some head =>
      rw [linkedBack, List.getElem?_modify, Option.map_some]
      by_cases here : head.toNat = number
      · simp only [here, ↓reduceIte]
        rfl
      · have apart : some head.toNat ≠ some number := fun same => here (Option.some.inj same)
        simp only [here, apart, ↓reduceIte]
        exact Option.map_id'

theorem RelationshipRecord.Present.setPrevious {record : RelationshipRecord}
    (present : record.Present) (node : RecordId) (number : some id ≠ some absentId) :
    (record.setPrevious node (some id)).Present where
  firstPrevious := by
    unfold RelationshipRecord.setPrevious
    simp only
    split
    · exact number
    · exact present.firstPrevious
  firstNext := present.firstNext
  secondPrevious := by
    unfold RelationshipRecord.setPrevious
    simp only
    split
    · exact number
    · exact present.secondPrevious
  secondNext := present.secondNext
  properties := present.properties

theorem RelationshipRecord.Present.faithful {record : RelationshipRecord}
    (present : record.Present) : Faithful record :=
  RelationshipRecord.faithful present.firstPrevious present.firstNext present.secondPrevious
    present.secondNext present.properties

theorem exists_linkedBack (node : RecordId) (former : Option RecordId) (id : RecordId)
    {number : Nat} {record : RelationshipRecord}
    (found : records[number]? = some record) :
    ∃ later, (linkedBack records node former id)[number]? = some later ∧
      (later = record ∨ later = record.setPrevious node (some id)) := by
  rw [getElem?_linkedBack, found]
  split
  · exact ⟨_, rfl, .inr rfl⟩
  · exact ⟨_, rfl, .inl rfl⟩

private theorem setPrevious_setPrevious (record : RelationshipRecord) (node : RecordId)
    (previous : Option RecordId) :
    (record.setPrevious node previous).setPrevious node previous =
      record.setPrevious node previous := by
  simp only [RelationshipRecord.setPrevious]
  split <;> split <;> rfl

theorem linkedBack_linkedBack :
    linkedBack (linkedBack records node former id) node former id =
      linkedBack records node former id := by
  apply List.ext_getElem?
  intro number
  rw [getElem?_linkedBack, getElem?_linkedBack]
  split
  · rw [Option.map_map]
    congr 1
    funext record
    exact setPrevious_setPrevious record node (some id)
  · rfl

theorem exists_next_linkedBack (node : RecordId) (former : Option RecordId) (id : RecordId)
    {number : Nat} {record : RelationshipRecord} (found : records[number]? = some record) :
    ∃ later, (linkedBack records node former id)[number]? = some later ∧
      ∀ other, later.next other = record.next other := by
  obtain ⟨later, there, rfl | rfl⟩ := exists_linkedBack node former id found
  · exact ⟨later, there, fun _ => rfl⟩
  · exact ⟨_, there, fun _ => rfl⟩

end

/-!
## Representation
-/

section

variable {stores : Stores} {graph : StoredGraph} {relationship : Relationship} {node id : RecordId}

theorem RelationshipAt.setPrevious {record : RelationshipRecord}
    (held : RelationshipAt stores record relationship) (node : RecordId)
    (number : some id ≠ some absentId) :
    RelationshipAt stores (record.setPrevious node (some id)) relationship where
  present := held.present.setPrevious node number
  inUse := held.inUse
  source := held.source
  target := held.target
  labels := held.labels
  properties := held.properties

theorem StoredGraph.attach_nil (graph : StoredGraph) (relationship : Relationship) :
    graph.attach relationship [] =
      { graph with relationships := graph.relationships ++ [relationship] } := by
  rw [attach]
  congr 1
  apply List.ext_getElem?
  intro number
  rw [List.getElem?_mapIdx]
  simp

theorem StoredGraph.attach_congr (graph : StoredGraph) (relationship : Relationship)
    {ends others : List RecordId} (same : ∀ id, id ∈ ends ↔ id ∈ others) :
    graph.attach relationship ends = graph.attach relationship others := by
  have among : ∀ number, number ∈ ends.map UInt32.toNat ↔ number ∈ others.map UInt32.toNat := by
    intro number
    simp only [List.mem_map, same]
  rw [attach, attach]
  simp only [among]

theorem StoredGraph.getElem?_attach (graph : StoredGraph) (relationship : Relationship)
    (ends : List RecordId) (number : Nat) :
    (graph.attach relationship ends).nodes[number]? = graph.nodes[number]?.map fun node =>
      if number ∈ ends.map UInt32.toNat then
        { node with relationships := UInt32.ofNat graph.relationships.length :: node.relationships }
      else node :=
  List.getElem?_mapIdx

theorem Represents.addRelationship (represents : Represents stores graph)
    {record : RelationshipRecord} (held : RelationshipAt stores record relationship) :
    Represents (stores.set .relationship (stores .relationship ++ [record]))
      (graph.attach relationship []) := by
  have grows : Grows stores (stores.set .relationship (stores .relationship ++ [record])) :=
    .set stores (by decide) _
  rw [StoredGraph.attach_nil]
  refine ⟨?_, ?_, ?_, ?_⟩
  · rw [Stores.set_of_ne stores (by decide)]
    exact represents.nodes
  · intro number other stored found named
    rw [Stores.set_of_ne stores (by decide)] at found
    refine (represents.nodeAt number other stored found named).grown grows ?_
    intro place former there
    rw [Stores.set_self]
    exact ⟨former, getElem?_of_grown (List.prefix_append _ _) there, rfl⟩
  · rw [Stores.set_self]
    refine List.rel_append ?_ (.cons (held.grown grows) .nil)
    exact represents.relationships.imp fun _ _ there => there.grown grows
  · rw [Stores.set_of_ne stores (by decide), Stores.set_of_ne stores (by decide)]
    exact represents.ids

theorem Represents.linkBack (represents : Represents stores graph) (node : RecordId)
    (former : Option RecordId) (number : some id ≠ some absentId) :
    Represents (stores.set .relationship (linkedBack (stores .relationship) node former id))
      graph := by
  have grows : Grows stores
      (stores.set .relationship (linkedBack (stores .relationship) node former id)) :=
    .set stores (by decide) _
  refine ⟨?_, ?_, ?_, ?_⟩
  · rw [Stores.set_of_ne stores (by decide)]
    exact represents.nodes
  · intro place other stored found named
    rw [Stores.set_of_ne stores (by decide)] at found
    refine (represents.nodeAt place other stored found named).grown grows ?_
    intro place record there
    rw [Stores.set_self]
    obtain ⟨later, laterThere, rfl | rfl⟩ := exists_linkedBack node former id there
    · exact ⟨later, laterThere, rfl⟩
    · exact ⟨_, laterThere, rfl⟩
  · rw [Stores.set_self]
    have width := represents.relationships.length_eq
    refine List.forall₂_iff_get.mpr ⟨by rw [length_linkedBack, width], ?_⟩
    intro place inside insideGraph
    have insideFormer : place < (stores .relationship).length := width ▸ insideGraph
    obtain ⟨relationship, stored, held⟩ :=
      represents.exists_of_record (List.getElem?_eq_getElem insideFormer)
    have sameRelationship := (List.getElem?_eq_some_iff.mp stored).2
    obtain ⟨later, there, kept⟩ :=
      exists_linkedBack node former id (List.getElem?_eq_getElem insideFormer)
    have sameLater := (List.getElem?_eq_some_iff.mp there).2
    rw [List.get_eq_getElem, List.get_eq_getElem, sameLater, sameRelationship]
    rcases kept with rfl | rfl
    · exact held.grown grows
    · exact (held.setPrevious node number).grown grows
  · rw [Stores.set_of_ne stores (by decide), Stores.set_of_ne stores (by decide)]
    exact represents.ids

theorem getElem?_headed (nodes : List NodeRecord) (node id : RecordId) (number : Nat) :
    (headed nodes node id)[number]? =
      if node.toNat = number then
        nodes[number]?.map fun record => { record with relationships := some id }
      else nodes[number]? := by
  rw [headed, List.getElem?_modify]
  by_cases here : node.toNat = number
  · simp only [here, ↓reduceIte]
    rfl
  · simp only [here, ↓reduceIte]
    exact Option.map_id'

theorem headed_headed (nodes : List NodeRecord) (node id : RecordId) :
    headed (headed nodes node id) node id = headed nodes node id := by
  apply List.ext_getElem?
  intro number
  rw [getElem?_headed, getElem?_headed]
  split
  · rw [Option.map_map]
    rfl
  · rfl

theorem Represents.present (represents : Represents stores graph) :
    ∀ record ∈ stores .relationship, record.Present := by
  intro record member
  obtain ⟨number, found⟩ := List.mem_iff_getElem?.mp member
  obtain ⟨_, -, held⟩ := represents.exists_of_record found
  exact held.present

theorem Represents.presentNode (represents : Represents stores graph) {number : Nat}
    {record : NodeRecord} (found : (stores .node)[number]? = some record) : record.Present := by
  obtain ⟨inside, -⟩ := List.getElem?_eq_some_iff.mp found
  rw [represents.nodes] at inside
  exact (represents.nodeAt number record _ found (List.getElem?_eq_getElem inside)).present

theorem Represents.head_lt (represents : Represents stores graph) {number : Nat}
    {record : NodeRecord} (found : (stores .node)[number]? = some record) {head : RecordId}
    (first : record.relationships = some head) : head.toNat < (stores .relationship).length := by
  obtain ⟨inside, -⟩ := List.getElem?_eq_some_iff.mp found
  rw [represents.nodes] at inside
  have held := represents.nodeAt number record _ found (List.getElem?_eq_getElem inside)
  obtain ⟨visited, chain, -⟩ := held.relationships
  rw [first] at chain
  cases chain with
  | cons there _ => exact (List.getElem?_eq_some_iff.mp there).1

/-- A node that points at a new relationship has it first in its chain. -/
theorem Represents.head (node : RecordId) {ends : List RecordId} {record : RelationshipRecord}
    (represents : Represents stores (graph.attach relationship ends)) (new : node ∉ ends)
    (room : graph.relationships.length < RecordFile.idLimit)
    (added : (stores .relationship)[graph.relationships.length]? = some record)
    (linked : ∀ former, (stores .node)[node.toNat]? = some former →
      record.next node = former.relationships) :
    Represents
      (stores.set .node
        (headed (stores .node) node (UInt32.ofNat graph.relationships.length)))
      (graph.attach relationship (ends ++ [node])) := by
  have width : (headed (stores .node) node (UInt32.ofNat graph.relationships.length)).length =
      (stores .node).length := by simp [headed]
  have apart : node.toNat ∉ ends.map UInt32.toNat := by
    intro member
    obtain ⟨other, among, same⟩ := List.mem_map.mp member
    exact new (UInt32.toNat.inj same ▸ among)
  refine ⟨?_, ?_, ?_, ?_⟩
  · rw [Stores.set_self, width, represents.nodes]
    simp [StoredGraph.attach]
  · intro number later named found stored
    rw [Stores.set_self, getElem?_headed] at found
    rw [StoredGraph.getElem?_attach] at stored
    simp only [List.map_append, List.mem_append, List.map_cons, List.map_nil,
      List.mem_singleton] at stored
    apply NodeAt.set (.inl rfl)
    by_cases here : node.toNat = number
    · subst here
      rw [if_pos rfl] at found
      obtain ⟨former, there, rfl⟩ := Option.map_eq_some_iff.mp found
      obtain ⟨inGraph, graphNode, rfl⟩ := Option.map_eq_some_iff.mp stored
      have attached : (graph.attach relationship ends).nodes[node.toNat]? = some inGraph := by
        rw [StoredGraph.getElem?_attach, graphNode, Option.map_some, if_neg apart]
      have held := represents.nodeAt node.toNat former inGraph there attached
      obtain ⟨visited, chain, same⟩ := held.relationships
      have first : record.next (UInt32.ofNat node.toNat) = former.relationships := by
        rw [UInt32.ofNat_toNat, linked former there]
      rw [if_pos (.inr rfl)]
      exact {
        held with
        present := ⟨held.present.1, ofNat_ne_absentId room, held.present.2.2⟩
        relationships := ⟨(UInt32.ofNat graph.relationships.length, record) :: visited,
          .cons (by rw [toNat_ofNat_of_lt room, added]) (first ▸ chain),
          congrArg (_ :: ·) same⟩ }
    · rw [if_neg here] at found
      refine represents.nodeAt number later named found ?_
      rw [StoredGraph.getElem?_attach, ← stored]
      have only : (number ∈ ends.map UInt32.toNat ∨ number = node.toNat) ↔
          number ∈ ends.map UInt32.toNat := by
        constructor
        · intro given
          rcases given with among | same
          · exact among
          · exact absurd same.symm here
        · exact .inl
      simp only [only]
  · rw [Stores.set_of_ne stores (by decide)]
    exact represents.relationships.imp fun _ _ there => there.set (by decide) _
  · rw [Stores.set_self, Stores.set_of_ne stores (by decide), width]
    exact represents.ids

end

/-!
## Writing
-/

namespace Site

variable {site : Site} {α β : Type} {before stores : Stores} {graph : StoredGraph}
  {passing : Stores → Prop}

/-- An action that surely gives one value goes on from the records it leaves. -/
theorem Ensures.then {action : Action α} {next : α → Action β} {value : α}
    {middle : Stores → Prop} {last : Except Error β → Stores → Prop}
    (first : site.Ensures action before passing fun outcome stores =>
      outcome = .ok value ∧ middle stores)
    (rest : ∀ stores, middle stores → site.Ensures (next value) stores passing last) :
    site.Ensures (action >>= next) before passing last := by
  refine first.bind ?_ ?_
  · intro other stores done
    obtain ⟨same, reached⟩ := done
    exact Except.ok.inj same ▸ rest stores reached
  · intro error stores done
    cases done.1

theorem ensures_linkBack {node id : RecordId} {former : Option RecordId}
    (inside : ∀ head, former = some head → head.toNat < (before .relationship).length)
    (present : ∀ record ∈ before .relationship, record.Present)
    (number : some id ≠ some absentId)
    (passes : passing
      (before.set .relationship (linkedBack (before .relationship) node former id))) :
    site.Ensures (Collection.linkBack (site.file .relationship) node former id) before passing
      fun outcome stores => outcome = .ok () ∧
        stores = before.set .relationship (linkedBack (before .relationship) node former id) := by
  cases former with
  | none =>
      have same : before.set .relationship (before .relationship) = before :=
        Function.update_eq_self ..
      exact (Yields.pure ()).ensures ⟨rfl, same.symm⟩
  | some head =>
      have room := inside head rfl
      have found := List.getElem?_eq_getElem room
      have kept := present _ (List.getElem_mem room)
      have same : linkedBack (before .relationship) node (some head) id =
          (before .relationship).set head.toNat
            ((before .relationship)[head.toNat].setPrevious node (some id)) := by
        rw [linkedBack, List.modify_eq_set_getElem?, found]
        rfl
      rw [same] at passes ⊢
      refine (yields_read found).bind_ensures ?_
      exact ensures_writeAt room (kept.setPrevious node number).faithful passes ⟨rfl, rfl⟩

theorem ensures_head {node id : RecordId} {record : NodeRecord}
    (found : (before .node)[node.toNat]? = some record) (present : record.Present)
    (number : some id ≠ some absentId)
    (passes : passing (before.set .node (headed (before .node) node id))) :
    site.Ensures ((site.file .node).writeAt node { record with relationships := some id }) before
      passing fun outcome stores =>
        outcome = .ok () ∧ stores = before.set .node (headed (before .node) node id) := by
  have same : headed (before .node) node id =
      (before .node).set node.toNat { record with relationships := some id } := by
    rw [headed, List.modify_eq_set_getElem?, found]
    rfl
  obtain ⟨inside, -⟩ := List.getElem?_eq_some_iff.mp found
  have faithful : Faithful { record with relationships := some id } :=
    NodeRecord.faithful present.1 number present.2.2
  rw [same] at passes ⊢
  exact ensures_writeAt inside faithful passes ⟨rfl, rfl⟩

/-- The node at an end is read, or the relationship is refused. -/
theorem yields_endpoint (represents : Represents stores graph) (id : RecordId) :
    (∃ error, site.Yields (Collection.endpoint (site.file .node) id) stores (.error error)) ∨
      ∃ record node, (stores .node)[id.toNat]? = some record ∧ graph.nodes[id.toNat]? = some node ∧
        site.Yields (Collection.endpoint (site.file .node) id) stores (.ok record) := by
  cases stored : graph.nodes[id.toNat]? with
  | none =>
      have outside : (stores .node)[id.toNat]? = none := by
        rw [List.getElem?_eq_none_iff] at stored ⊢
        rw [represents.nodes]
        exact stored
      obtain ⟨detail, refused⟩ := yields_readInUse_none outside
      exact .inl ⟨.invalidReference s!"node {id} does not exist", refused.handled_error (.throw _)⟩
  | some node =>
      obtain ⟨record, found, held⟩ := represents.exists_record stored
      exact .inr ⟨record, node, found, rfl, (yields_readInUse found held.inUse).handled _⟩

/-- Whether some records are those of a graph without a relationship, or with it in the chains of
none, of one or of both of its nodes. -/
def Joining (graph : StoredGraph) (relationship : Relationship) (stores : Stores) : Prop :=
  Represents stores graph ∨ ∃ ends, ends <+: [relationship.source, relationship.target] ∧
    Represents stores (graph.attach relationship ends)

/-- Whether some records are those of a graph with a relationship in the chains of both its nodes. -/
def Joined (graph : StoredGraph) (relationship : Relationship) (before stores : Stores) : Prop :=
  Represents stores (graph.attach relationship [relationship.source, relationship.target]) ∧
    ∃ record : RelationshipRecord, record.first = relationship.source ∧
      record.second = relationship.target ∧ Joins before stores record

/-- Whether some records are those of a graph in which a relationship is being linked. It is the
last one, and the chains of some ends go through it. -/
structure IsLinking (graph : StoredGraph) (relationship : Relationship)
    (record : RelationshipRecord) (ends : List RecordId) (stores : Stores) : Prop where
  represents : Represents stores (graph.attach relationship ends)
  last : ∃ later, (stores .relationship)[graph.relationships.length]? = some later ∧
    ∀ other, later.next other = record.next other
  among : ends <+: [relationship.source, relationship.target]

namespace IsLinking

variable {relationship : Relationship} {record : RelationshipRecord} {ends : List RecordId}
  {node id : RecordId} {stored : NodeRecord}

theorem joining (linking : IsLinking graph relationship record ends stores) :
    Joining graph relationship stores :=
  .inr ⟨ends, linking.among, linking.represents⟩

/-- The former first relationship of a node points back, which changes no chain. -/
theorem ensures_linkBack (linking : IsLinking graph relationship record ends before)
    (found : (before .node)[node.toNat]? = some stored) (number : some id ≠ some absentId) :
    site.Ensures (Collection.linkBack (site.file .relationship) node stored.relationships id) before
      (Joining graph relationship)
      fun outcome stores => outcome = .ok () ∧
        IsLinking graph relationship record ends stores ∧ stores .node = before .node ∧
        stores .relationship = linkedBack (before .relationship) node stored.relationships id ∧
        SameOthers before stores := by
  obtain ⟨former, there, same⟩ := linking.last
  obtain ⟨later, laterThere, kept⟩ := exists_next_linkedBack node stored.relationships id there
  have linked : IsLinking graph relationship record ends (before.set .relationship
      (linkedBack (before .relationship) node stored.relationships id)) := {
    represents := linking.represents.linkBack node stored.relationships number
    last := by
      rw [Stores.set_self]
      exact ⟨later, laterThere, fun other => (kept other).trans (same other)⟩
    among := linking.among }
  have inside := fun head (first : stored.relationships = some head) =>
    linking.represents.head_lt found first
  refine (Site.ensures_linkBack inside linking.represents.present number linked.joining).imp
    (fun _ passed => passed) ?_
  intro outcome stores done
  obtain ⟨succeeded, rfl⟩ := done
  exact ⟨succeeded, linked, Stores.set_of_ne before (by decide) _, Stores.set_self ..,
    fun _ _ apart => Stores.set_of_ne before apart _⟩

/-- A node points at the relationship, which enters its chain. -/
theorem ensures_head (linking : IsLinking graph relationship record ends before)
    (found : (before .node)[node.toNat]? = some stored) (new : node ∉ ends)
    (room : graph.relationships.length < RecordFile.idLimit)
    (number : id = UInt32.ofNat graph.relationships.length)
    (among : ends ++ [node] <+: [relationship.source, relationship.target])
    (next : record.next node = stored.relationships) :
    site.Ensures ((site.file .node).writeAt node { stored with relationships := some id }) before
      (Joining graph relationship)
      fun outcome stores => outcome = .ok () ∧
        IsLinking graph relationship record (ends ++ [node]) stores ∧
        stores .node = headed (before .node) node id ∧
        stores .relationship = before .relationship ∧ SameOthers before stores := by
  subst number
  obtain ⟨later, there, same⟩ := linking.last
  have leads : ∀ former, (before .node)[node.toNat]? = some former →
      later.next node = former.relationships := by
    intro former isFormer
    rw [same, next, Option.some.inj (isFormer.symm.trans found)]
  have linked : IsLinking graph relationship record (ends ++ [node]) (before.set .node
      (headed (before .node) node (UInt32.ofNat graph.relationships.length))) := {
    represents := linking.represents.head node new room there leads
    last := by
      rw [Stores.set_of_ne before (by decide)]
      exact ⟨later, there, same⟩
    among }
  refine (Site.ensures_head found (linking.represents.presentNode found) (ofNat_ne_absentId room)
    linked.joining).imp (fun _ passed => passed) ?_
  intro outcome stores done
  obtain ⟨succeeded, rfl⟩ := done
  exact ⟨succeeded, linked, Stores.set_self .., Stores.set_of_ne before (by decide) _,
    fun _ apart _ => Stores.set_of_ne before apart _⟩

end IsLinking

/-- The work on both ends of a relationship that was added with the number `id`. -/
def linkEnds (site : Site) (relationship : Relationship)
    (sourceRecord targetRecord : NodeRecord) (id : RecordId) : Action Relationship := do
  Collection.linkBack (site.file .relationship) relationship.source
    sourceRecord.relationships id
  if relationship.source ≠ relationship.target then
    Collection.linkBack (site.file .relationship) relationship.target
      targetRecord.relationships id
  (site.file .node).writeAt relationship.source
    { sourceRecord with relationships := some id }
  if relationship.source ≠ relationship.target then
    (site.file .node).writeAt relationship.target
      { targetRecord with relationships := some id }
  return { relationship with id := some id }

/-- A relationship that is added is linked in the chains of both its nodes, first backwards and
then from the nodes. -/
private theorem ensures_links {added : Stores} {relationship : Relationship}
    {record : RelationshipRecord} (first : record.first = relationship.source)
    (second : record.second = relationship.target)
    (linking : IsLinking graph relationship record [] added)
    (room : graph.relationships.length < RecordFile.idLimit)
    {sourceRecord targetRecord : NodeRecord}
    (source : (added .node)[relationship.source.toNat]? = some sourceRecord)
    (target : (added .node)[relationship.target.toNat]? = some targetRecord)
    (firstNext : record.firstNext = sourceRecord.relationships)
    (secondNext : record.secondNext = targetRecord.relationships) {id : RecordId}
    (number : id = UInt32.ofNat graph.relationships.length) :
    site.Ensures (linkEnds site relationship sourceRecord targetRecord id) added
      (Joining graph relationship)
      fun outcome stores =>
        outcome = .ok { relationship with id := some id } ∧
          Represents stores (graph.attach relationship [relationship.source, relationship.target]) ∧
          stores .relationship =
            linkedBack (linkedBack (added .relationship) record.first record.firstNext id)
              record.second record.secondNext id ∧
          stores .node = headed (headed (added .node) record.first id) record.second id ∧
          SameOthers added stores := by
  have present : some id ≠ some absentId := number ▸ ofNat_ne_absentId room
  have sourceNext : record.next relationship.source = sourceRecord.relationships := by
    rw [RelationshipRecord.next, if_pos first, firstNext]
  unfold linkEnds
  refine (linking.ensures_linkBack source present).then fun back pointed => ?_
  obtain ⟨backLinking, backNodes, backLinks, backOthers⟩ := pointed
  by_cases loop : relationship.source = relationship.target
  · have closed : ¬relationship.source ≠ relationship.target := not_not.mpr loop
    obtain rfl := Option.some.inj (source.symm.trans (loop ▸ target))
    simp only [closed, ↓reduceIte]
    refine (backLinking.ensures_head (backNodes ▸ source) List.not_mem_nil room number
      (List.prefix_append _ _) sourceNext).then fun final entered => ?_
    obtain ⟨finalLinking, finalNodes, finalLinks, finalOthers⟩ := entered
    have same : ∀ id, id ∈ [relationship.source] ↔
        id ∈ [relationship.source, relationship.target] := by simp [loop]
    refine (Yields.pure _).ensures ⟨rfl, ?_, ?_, ?_, backOthers.trans finalOthers⟩
    · exact graph.attach_congr relationship same ▸ finalLinking.represents
    · rw [finalLinks, backLinks, first, second, ← loop, firstNext, secondNext,
        linkedBack_linkedBack]
    · rw [finalNodes, backNodes, first, second, ← loop, headed_headed]
  · have opened : relationship.source ≠ relationship.target := loop
    have targetNext : record.next relationship.target = targetRecord.relationships := by
      rw [RelationshipRecord.next, if_neg (first ▸ opened), if_pos second, secondNext]
    simp only [opened, ne_eq, not_false_eq_true, ↓reduceIte]
    refine (backLinking.ensures_linkBack (backNodes ▸ target) present).then fun both pointed => ?_
    obtain ⟨bothLinking, bothNodes, bothLinks, bothOthers⟩ := pointed
    rw [backNodes] at bothNodes
    refine (bothLinking.ensures_head (bothNodes ▸ source) List.not_mem_nil room number
      (List.prefix_append _ _) sourceNext).then fun half entered => ?_
    obtain ⟨halfLinking, halfNodes, halfLinks, halfOthers⟩ := entered
    have targetHalf : (half .node)[relationship.target.toNat]? = some targetRecord := by
      rw [halfNodes, getElem?_headed, bothNodes, target,
        if_neg fun same => opened (UInt32.toNat.inj same)]
    have notSource : relationship.target ∉ [relationship.source] := by
      rw [List.mem_singleton]
      exact opened.symm
    refine (halfLinking.ensures_head targetHalf notSource room number (List.prefix_refl _)
      targetNext).then fun final entered => ?_
    obtain ⟨finalLinking, finalNodes, finalLinks, finalOthers⟩ := entered
    refine (Yields.pure _).ensures ⟨rfl, finalLinking.represents, ?_, ?_,
      ((backOthers.trans bothOthers).trans halfOthers).trans finalOthers⟩
    · rw [finalLinks, halfLinks, bothLinks, backLinks, first, second, firstNext, secondNext]
    · rw [finalNodes, halfNodes, bothNodes, first, second]

/-- A relationship whose labels and properties are written is added with the next number and
linked. -/
theorem ensures_join (represents : Represents before graph) {relationship : Relationship}
    {record : RelationshipRecord} (held : RelationshipAt before record relationship)
    (previous : record.firstPrevious = none ∧ record.secondPrevious = none)
    {sourceRecord targetRecord : NodeRecord}
    (source : (before .node)[relationship.source.toNat]? = some sourceRecord)
    (target : (before .node)[relationship.target.toNat]? = some targetRecord)
    (firstNext : record.firstNext = sourceRecord.relationships)
    (secondNext : record.secondNext = targetRecord.relationships) :
    site.Ensures (do
        let id ← (site.file .relationship).append record
        linkEnds site relationship sourceRecord targetRecord id) before
      (Joining graph relationship)
      fun outcome stores =>
        (∃ error, outcome = .error error ∧ error.isFull = true ∧ stores = before) ∨
        outcome = .ok { relationship with
            id := some (UInt32.ofNat graph.relationships.length) } ∧
          Represents stores
            (graph.attach relationship [relationship.source, relationship.target]) ∧
          Joins before stores record ∧ SameOthers before stores := by
  have width := represents.relationships.length_eq
  obtain ⟨added, addedIs⟩ : ∃ stores, stores =
      before.set .relationship (before .relationship ++ [record]) := ⟨_, rfl⟩
  have joined : Represents added (graph.attach relationship []) := by
    rw [addedIs]
    exact represents.addRelationship held
  have nodes : added .node = before .node := by rw [addedIs, Stores.set_of_ne _ (by decide)]
  have relationships : added .relationship = before .relationship ++ [record] := by
    rw [addedIs, Stores.set_self]
  have appended : site.Ensures ((site.file .relationship).append record) before
      (Joining graph relationship)
      fun outcome stores =>
        (∃ error, outcome = .error error ∧ error.isFull = true ∧ stores = before) ∨
        outcome = .ok (UInt32.ofNat graph.relationships.length) ∧
          graph.relationships.length + 1 < RecordFile.idLimit ∧ stores = added := by
    refine ensures_append held.present.faithful (fun _ error full => .inl ⟨error, rfl, full, rfl⟩) ?_
    intro room
    exact ⟨addedIs ▸ .inr ⟨[], List.nil_prefix, joined⟩,
      .inr ⟨by rw [width], width ▸ room, addedIs.symm⟩⟩
  refine appended.bind ?_ ?_
  · intro id stores ended
    rcases ended with ⟨error, impossible, -⟩ | ⟨same, room, rfl⟩
    · cases impossible
    have number := (Except.ok.inj same).symm
    have last : (stores .relationship)[graph.relationships.length]? = some record := by
      rw [relationships, ← width, List.getElem?_concat_length]
    have linking : IsLinking graph relationship record [] stores :=
      ⟨joined, ⟨record, last, fun _ => rfl⟩, List.nil_prefix⟩
    refine (ensures_links held.source held.target linking (Nat.lt_of_succ_lt room)
      (nodes ▸ source) (nodes ▸ target) firstNext secondNext number.symm).imp
      (fun _ passed => passed) ?_
    intro outcome later ended
    obtain ⟨rfl, represented, links, heads, others⟩ := ended
    have own : UInt32.ofNat (before .relationship).length = id := by rw [width, number]
    have toAdded : SameOthers before stores :=
      addedIs ▸ fun _ _ apart => Stores.set_of_ne before apart _
    refine .inr ⟨by rw [number], represented, ?_, toAdded.trans others⟩
    exact {
      room := width ▸ room
      previous
      source := ⟨sourceRecord, held.source ▸ source, firstNext⟩
      target := ⟨targetRecord, held.target ▸ target, secondNext⟩
      relationships := by rw [links, relationships, own]
      nodes := by rw [heads, nodes, own] }
  · intro error stores ended
    rcases ended with ⟨other, same, full, rfl⟩ | ⟨impossible, -⟩
    · exact .inl ⟨error, rfl, Except.error.inj same ▸ full, rfl⟩
    · cases impossible

/-- How an attempt to store a relationship ends. An error leaves it out, and success gives it the
next number. -/
def EndsJoining (graph : StoredGraph) (relationship : Relationship) (before : Stores)
    (outcome : Except Error Relationship) (stores : Stores) : Prop :=
  (∃ error, outcome = .error error ∧ Represents stores graph ∧ stores .node = before .node ∧
    stores .relationship = before .relationship) ∨
  outcome = .ok { relationship with id := some (UInt32.ofNat graph.relationships.length) } ∧
    Joined graph relationship before stores

/-- While a relationship is stored, the records are those of the graph without it, or with it in
the chains of none, of one or of both of its nodes. -/
theorem ensures_createRelationship (represents : Represents before graph)
    (relationship : Relationship) :
    site.Ensures (site.collection.createRelationship relationship) before
      (Joining graph relationship) (EndsJoining graph relationship before) := by
  have refused : ∀ error, EndsJoining graph relationship before (.error error) before :=
    fun error => .inl ⟨error, rfl, represents, rfl, rfl⟩
  have failed : ∀ error stores, Enriches before stores →
      EndsJoining graph relationship before (.error error) stores :=
    fun error stores enriched => .inl ⟨error, rfl, represents.enriched enriched, enriched.node,
      enriched.relationship⟩
  refine (yields_openAs .node).bind_ensures ?_
  rcases yields_endpoint represents relationship.source with
    ⟨error, missing⟩ | ⟨sourceRecord, _, source, -, sourceRead⟩
  · exact (missing.bind_error _).ensures (refused error)
  refine sourceRead.bind_ensures ?_
  rcases yields_endpoint represents relationship.target with
    ⟨error, missing⟩ | ⟨targetRecord, _, target, -, targetRead⟩
  · exact (missing.bind_error _).ensures (refused error)
  refine targetRead.bind_ensures (Ensures.of_bind (fun _ _ => ?_) fun error _ => refused error)
  by_cases unnamed : relationship.kind.isEmpty = true
  · simp only [unnamed, ↓reduceIte]
    exact ((Yields.throw _).bind_error _).ensures (refused _)
  simp only [unnamed]
  refine Ensures.of_bind (fun kindRecord labelsMade => ?_) fun error _ => refused error
  rcases yields_planProperties relationship.properties with ⟨error, denied⟩ | ⟨plan, planned, plans, -⟩
  · exact (denied.bind_error _).ensures (refused error)
  refine planned.bind_ensures (yields_verify.bind_ensures ((yields_openAs .label).bind_ensures ?_))
  refine (enriching_appendLabels labelsMade).bind_ensures
    (fun stores enriched => .inl (represents.enriched enriched)) ?_ failed
  intro kind middle toMiddle ended
  obtain ⟨⟨_, labelsHeld⟩, index⟩ := ended
  have keys : middle.keys = before.keys := congrArg (List.map KeyRecord.name) index
  refine (enriching_writeProperties (keys ▸ plans)).bind_ensures
    (fun stores enriched => .inl (represents.enriched (toMiddle.trans enriched))) ?_
    fun error stores enriched => failed error stores (toMiddle.trans enriched)
  intro properties last toLast ended
  obtain ⟨propertiesPresent, propertiesHeld⟩ := ended
  have enriched := toMiddle.trans toLast
  refine (yields_openAs .relationship).bind_ensures ?_
  have held : RelationshipAt last {
      inUse := true, first := relationship.source, second := relationship.target, kind
      firstPrevious := none, firstNext := sourceRecord.relationships
      secondPrevious := none, secondNext := targetRecord.relationships, properties }
      relationship := {
    present := ⟨nofun, (represents.presentNode source).2.1, nofun,
      (represents.presentNode target).2.1, propertiesPresent⟩
    inUse := rfl
    source := rfl
    target := rfl
    labels := labelsHeld.grown toLast.grows
    properties := propertiesHeld }
  refine (ensures_join (represents.enriched enriched) held ⟨rfl, rfl⟩ (enriched.node ▸ source)
    (enriched.node ▸ target) rfl rfl).imp (fun _ passed => passed) ?_
  intro outcome stores ended
  rcases ended with ⟨error, rfl, -, rfl⟩ | ⟨rfl, represented, joins, -⟩
  · exact failed error stores enriched
  · exact .inr ⟨rfl, represented, _, held.source, held.target, joins.of_enriches enriched⟩

end Site

end GraphStore
