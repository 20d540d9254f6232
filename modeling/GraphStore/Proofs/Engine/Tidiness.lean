import GraphStore.Proofs.Engine.Holdings
import GraphStore.Proofs.Engine.Links
import GraphStore.Proofs.Engine.Refinement

/-!
# Collections without loose ends

Main statement: whatever calls are made on a collection that was just made, as long as none finds a
file full, every pointer leads to a record that is in use, every label, property and text belongs to
exactly one owner, there are as many of them as their owners need, and keys are only added.
-/

set_option autoImplicit false

namespace GraphStore

/-!
## Pointers and owners
-/

/-- A pointer, if there is one, into a file. -/
def StoreKind.toward (kind : StoreKind) (pointer : Option Nat) : List (StoreKind × Nat) :=
  (pointer.map (kind, ·)).toList

/-- The pointer in a block. -/
def PropertyBlock.pointers (block : PropertyBlock) : List (StoreKind × Nat) :=
  match block.type with
  | .string => [(.string, block.value.toNat)]
  | .array => [(.array, block.value.toNat)]
  | _ => []

/-- The pointers of a record at relationships in the chains of its nodes. -/
def RelationshipRecord.links (record : RelationshipRecord) : List (Option RecordId) :=
  [record.firstPrevious, record.firstNext, record.secondPrevious, record.secondNext]

/-- The pointers of a record, each with the file into which it leads. -/
def StoreKind.pointers : (kind : StoreKind) → kind.Record → List (StoreKind × Nat)
  | .node, record =>
      toward .label (record.labels.map UInt32.toNat) ++
        toward .relationship (record.relationships.map UInt32.toNat) ++
        toward .property (record.properties.map UInt32.toNat)
  | .nodeId, record => [(.node, record.node.toNat)]
  | .relationship, record =>
      [(.node, record.first.toNat), (.node, record.second.toNat), (.label, record.kind.toNat)] ++
        record.links.flatMap (fun link => toward .relationship (link.map UInt32.toNat)) ++
        toward .property (record.properties.map UInt32.toNat)
  | .label, _ => []
  | .property, record =>
      toward .property (record.next.map UInt16.toNat) ++
        toward .property (record.previous.map UInt16.toNat) ++
        record.used.flatMap PropertyBlock.pointers
  | .string, record => toward .string (record.next.map UInt32.toNat)
  | .array, record => toward .array (record.next.map UInt32.toNat)
  | .index, _ => []

namespace Stores

/-- The label records at which nodes and relationships point. -/
def labelHeads (stores : Stores) : List Nat :=
  (stores .node).filterMap (fun record => record.labels.map UInt32.toNat) ++
    (stores .relationship).map fun record => record.kind.toNat

/-- The property records at which nodes and relationships point. -/
def propertyHeads (stores : Stores) : List Nat :=
  (stores .node).filterMap (fun record => record.properties.map UInt32.toNat) ++
    (stores .relationship).filterMap fun record => record.properties.map UInt32.toNat

/-- Whether nothing in the files of a collection is dangling, shared or left over. -/
structure Tidy (stores : Stores) : Prop where
  inUse (kind : StoreKind) : ∀ record ∈ stores kind, StoredRecord.inUse record = true
  pointers (kind : StoreKind) : ∀ record ∈ stores kind, ∀ pointer ∈ kind.pointers record,
    pointer.2 < (stores pointer.1).length
  labels : Owned IsLabelRun stores.labelHeads (stores .label)
  properties : Owned IsPropertyRun stores.propertyHeads (stores .property)
  texts : Owned IsTextRun (stores.blocks.filterMap PropertyBlock.textHead?) (stores .string)
  keys : KeysFit (stores .index)
  known : ∀ block ∈ stores.blocks, block.key.toNat < (stores .index).length
  listed : (stores .nodeId).length = (stores .node).length
  numbered : ∀ (place : Nat) record, (stores .nodeId)[place]? = some record →
    record.node.toNat = place

end Stores

/-- How many records of a kind the nodes and relationships of a graph take. -/
def StoredGraph.recordCount (graph : StoredGraph) (kind : StoreKind) : Nat :=
  (graph.nodes.map fun node => node.recordCount kind).sum +
    (graph.relationships.map fun relationship => relationship.recordCount kind).sum

/-!
## What calls keep
-/

/-- Whether the links of some relationships are at records with numbers below a bound. -/
def LinksBelow (bound : Nat) (records : List RelationshipRecord) : Prop :=
  ∀ record ∈ records, ∀ id, some id ∈ record.links → id.toNat < bound

/-- What every call keeps as long as no file is full. -/
structure Kept (graph : StoredGraph) (stores : Stores) : Prop where
  shelved : Shelved stores stores.labelHeads stores.propertyHeads []
  links : LinksBelow (stores .relationship).length (stores .relationship)
  ids : stores .nodeId =
    (List.range (stores .node).length).map fun place => ⟨true, UInt32.ofNat place⟩
  counts : ∀ kind : StoreKind, kind ≠ .index → (stores kind).length = graph.recordCount kind

section

variable {records : List RelationshipRecord} {nodes : List NodeRecord} {node id : RecordId}
  {former : Option RecordId} {α : Type}

theorem map_linkedBack (f : RelationshipRecord → α)
    (same : ∀ record previous, f (record.setPrevious node previous) = f record) :
    (linkedBack records node former id).map f = records.map f := by
  apply List.ext_getElem?
  intro place
  rw [List.getElem?_map, List.getElem?_map, getElem?_linkedBack]
  split
  · rw [Option.map_map]
    exact Option.map_congr fun record _ => same record (some id)
  · rfl

theorem map_headed (f : NodeRecord → α)
    (same : ∀ record, f { record with relationships := some id } = f record) :
    (headed nodes node id).map f = nodes.map f := by
  apply List.ext_getElem?
  intro place
  rw [List.getElem?_map, List.getElem?_map, getElem?_headed]
  split
  · rw [Option.map_map]
    exact Option.map_congr fun record _ => same record
  · rfl

theorem mem_linkedBack {later : RelationshipRecord}
    (member : later ∈ linkedBack records node former id) :
    later ∈ records ∨ ∃ record ∈ records, later = record.setPrevious node (some id) := by
  obtain ⟨place, found⟩ := List.mem_iff_getElem?.mp member
  rw [getElem?_linkedBack] at found
  split at found
  · obtain ⟨record, there, rfl⟩ := Option.map_eq_some_iff.mp found
    exact .inr ⟨record, List.mem_of_getElem? there, rfl⟩
  · exact .inl (List.mem_of_getElem? found)

theorem mem_links_setPrevious {record : RelationshipRecord} {link : Option RecordId}
    (member : link ∈ (record.setPrevious node (some id)).links) :
    link = some id ∨ link ∈ record.links := by
  simp only [RelationshipRecord.links, RelationshipRecord.setPrevious, List.mem_cons,
    List.not_mem_nil, or_false] at member ⊢
  split at member <;> split at member <;> grind

theorem LinksBelow.linkedBack {bound : Nat} (below : LinksBelow bound records)
    (new : id.toNat < bound) : LinksBelow bound (linkedBack records node former id) := by
  intro later member other link
  rcases mem_linkedBack member with old | ⟨record, there, rfl⟩
  · exact below later old other link
  · rcases mem_links_setPrevious link with same | old
    · exact Option.some.inj same ▸ new
    · exact below record there other old

theorem filterMap_eq_of_map_eq {β : Type} {f : α → Option β} {left right : List α}
    (same : left.map f = right.map f) : left.filterMap f = right.filterMap f := by
  have filtered := congrArg (List.filterMap id) same
  rwa [List.filterMap_map, List.filterMap_map] at filtered

theorem perm_filterMap_concat {β : Type} (f : α → Option β) (items : List α) (last : α) :
    ((f last).toList ++ items.filterMap f).Perm ((items ++ [last]).filterMap f) := by
  have single : [last].filterMap f = (f last).toList := by
    cases given : f last with
    | none => rw [List.filterMap_cons_none given]; rfl
    | some value => rw [List.filterMap_cons_some given]; rfl
  rw [List.filterMap_append, single]
  exact List.perm_append_comm

end

namespace Kept

variable {graph stored : StoredGraph} {before stores : Stores}

theorem empty : Kept .empty .empty where
  shelved := .empty
  links := nofun
  ids := rfl
  counts kind _ := by cases kind <;> rfl

theorem addNode (kept : Kept graph before) {node : Node} {record : NodeRecord}
    (added : Site.NodeStored before.labelHeads before.propertyHeads node record before stores) :
    Kept { graph with nodes := graph.nodes ++ [node] } stores where
  shelved := by
    refine added.shelved.perm ?_ ?_
    · rw [Stores.labelHeads, Stores.labelHeads, added.nodes, added.relationships,
        ← List.append_assoc]
      exact (perm_filterMap_concat (fun record : NodeRecord => record.labels.map UInt32.toNat) _
        record).append_right _
    · rw [Stores.propertyHeads, Stores.propertyHeads, added.nodes, added.relationships,
        ← List.append_assoc]
      exact (perm_filterMap_concat (fun record : NodeRecord => record.properties.map UInt32.toNat) _
        record).append_right _
  links := by
    rw [added.relationships]
    exact kept.links
  ids := by
    rw [added.ids, added.nodes, kept.ids, List.length_append, List.length_singleton,
      List.range_succ, List.map_append]
    rfl
  counts kind noKey := by
    rw [added.counts kind noKey, kept.counts kind noKey, StoredGraph.recordCount,
      StoredGraph.recordCount, List.map_append, List.sum_append]
    simp only [List.map_cons, List.map_nil, List.sum_singleton]
    omega

theorem addRelationship (kept : Kept graph before) (represents : Represents before stored)
    {relationship : Relationship} {record : RelationshipRecord}
    (added : Site.RelationshipStored before.labelHeads before.propertyHeads relationship record
      before stores) :
    Kept { graph with relationships := graph.relationships ++ [relationship] } stores := by
  have joins := added.joins
  have width : (stores .node).length = (before .node).length := by
    rw [joins.nodes, headed, headed, List.length_modify, List.length_modify]
  have relationships : (stores .relationship).length = (before .relationship).length + 1 := by
    rw [joins.relationships, length_linkedBack, length_linkedBack, List.length_append]
    rfl
  -- Pointing both nodes at the record and linking the former first ones back to it changes neither
  -- what they own nor how many of them there are.
  have nodeHeads : ∀ f : NodeRecord → Option Nat,
      (∀ record id, f { record with relationships := some id } = f record) →
      (stores .node).filterMap f = (before .node).filterMap f := by
    intro f same
    apply filterMap_eq_of_map_eq
    rw [joins.nodes, map_headed f fun record => same record _,
      map_headed f fun record => same record _]
  have heads : ∀ {α : Type} (f : RelationshipRecord → α),
      (∀ record node previous, f (record.setPrevious node previous) = f record) →
      (stores .relationship).map f = (before .relationship ++ [record]).map f := by
    intro α f same
    rw [joins.relationships, map_linkedBack f fun record => same record _,
      map_linkedBack f fun record => same record _]
  constructor
  · refine added.shelved.perm ?_ ?_
    · rw [Stores.labelHeads, Stores.labelHeads, nodeHeads _ fun _ _ => rfl,
        heads _ fun _ _ _ => rfl, List.map_append, ← List.append_assoc]
      exact (List.perm_append_singleton _ _).symm
    · rw [Stores.propertyHeads, Stores.propertyHeads, nodeHeads _ fun _ _ => rfl,
        filterMap_eq_of_map_eq (heads _ fun _ _ _ => rfl)]
      refine (List.perm_append_comm_assoc _ _ _).trans (.append_left _ ?_)
      exact perm_filterMap_concat
        (fun record : RelationshipRecord => record.properties.map UInt32.toNat) _ record
  · have new : (UInt32.ofNat (before .relationship).length).toNat =
        (before .relationship).length := toNat_ofNat_of_lt (Nat.lt_of_succ_lt joins.room)
    have below : LinksBelow ((before .relationship).length + 1)
        (before .relationship ++ [record]) := by
      intro other member id link
      apply Nat.lt_succ_of_lt
      rcases List.mem_append.mp member with old | last
      · exact kept.links other old id link
      · obtain rfl := List.mem_singleton.mp last
        obtain ⟨sourceNode, sourceFound, sourceNext⟩ := joins.source
        obtain ⟨targetNode, targetFound, targetNext⟩ := joins.target
        simp only [RelationshipRecord.links, joins.previous.1, joins.previous.2, sourceNext,
          targetNext, List.mem_cons, List.not_mem_nil, or_false, reduceCtorEq, false_or] at link
        rcases link with first | second
        · exact represents.head_lt sourceFound first.symm
        · exact represents.head_lt targetFound second.symm
    rw [relationships, joins.relationships]
    have bound := Nat.lt_succ_of_le (Nat.le_of_eq new)
    exact (below.linkedBack bound).linkedBack bound
  · rw [added.ids, width]
    exact kept.ids
  · intro kind noKey
    rw [added.counts kind noKey, kept.counts kind noKey, StoredGraph.recordCount,
      StoredGraph.recordCount, List.map_append, List.sum_append]
    simp only [List.map_cons, List.map_nil, List.sum_singleton]
    omega

/-!
## Nothing is left over
-/

private theorem forall_toward {kind : StoreKind} {pointer : Option Nat}
    (inside : ∀ number, pointer = some number → number < (stores kind).length) :
    ∀ target ∈ kind.toward pointer, target.2 < (stores target.1).length := by
  intro target member
  cases pointer with
  | none => cases member
  | some number =>
      obtain rfl := List.mem_singleton.mp member
      exact inside number rfl

theorem inUse (kept : Kept graph stores) (represents : Represents stores stored)
    (kind : StoreKind) : ∀ record ∈ stores kind, StoredRecord.inUse record = true := by
  intro record member
  cases kind with
  | node =>
      obtain ⟨number, found⟩ := List.mem_iff_getElem?.mp member
      obtain ⟨inside, -⟩ := List.getElem?_eq_some_iff.mp found
      rw [represents.nodes] at inside
      exact (represents.nodeAt number record _ found (List.getElem?_eq_getElem inside)).inUse
  | nodeId =>
      rw [kept.ids] at member
      obtain ⟨place, -, rfl⟩ := List.mem_map.mp member
      rfl
  | relationship =>
      obtain ⟨number, found⟩ := List.mem_iff_getElem?.mp member
      obtain ⟨_, -, held⟩ := represents.exists_of_record found
      exact held.inUse
  | label =>
      obtain ⟨first, run, inRun, isRun, -⟩ := kept.shelved.labels.exists_run member
      exact isRun.inUse record inRun
  | property =>
      obtain ⟨first, run, inRun, isRun, -⟩ := kept.shelved.properties.exists_run member
      exact isRun.inUse record inRun
  | string =>
      obtain ⟨first, run, inRun, isRun, -⟩ := kept.shelved.texts.exists_run member
      exact isRun.inUse record inRun
  | array =>
      rw [kept.shelved.arrays] at member
      cases member
  | index => exact (kept.shelved.keys.each record member).1

private theorem label_lt (kept : Kept graph stores) {number : Nat}
    (head : number ∈ stores.labelHeads) : number < (stores .label).length :=
  kept.shelved.labels.lt_length (fun _ _ isRun => isRun.filled) number head

private theorem property_lt (kept : Kept graph stores) {number : Nat}
    (head : number ∈ stores.propertyHeads) : number < (stores .property).length :=
  kept.shelved.properties.lt_length (fun _ _ isRun => isRun.filled) number head

private theorem block_lt (kept : Kept graph stores) {block : PropertyBlock}
    (member : block ∈ stores.blocks ++ []) :
    ∀ target ∈ block.pointers, target.2 < (stores target.1).length := by
  obtain ⟨-, types⟩ := kept.shelved.blocks block member
  unfold PropertyBlock.pointers
  split
  next text =>
    have head : block.textHead? = some block.value.toNat := if_pos text
    refine List.forall_mem_singleton.mpr ?_
    exact kept.shelved.texts.lt_length (fun _ _ isRun => isRun.filled) _
      (List.mem_filterMap.mpr ⟨block, member, head⟩)
  next array => simp [array] at types
  next => exact nofun

theorem pointers (kept : Kept graph stores) (represents : Represents stores stored)
    (wired : Wired stores) (short : (stores .node).length < RecordFile.idLimit) (kind : StoreKind) :
    ∀ record ∈ stores kind, ∀ pointer ∈ kind.pointers record,
      pointer.2 < (stores pointer.1).length := by
  intro record member
  cases kind with
  | node =>
      simp only [StoreKind.pointers, List.forall_mem_append]
      refine ⟨⟨forall_toward fun number given => ?_, forall_toward fun number given => ?_⟩,
        forall_toward fun number given => ?_⟩
      · exact kept.label_lt (List.mem_append_left _ (List.mem_filterMap.mpr ⟨record, member, given⟩))
      · obtain ⟨place, found⟩ := List.mem_iff_getElem?.mp member
        obtain ⟨head, first, rfl⟩ := Option.map_eq_some_iff.mp given
        exact represents.head_lt found first
      · exact kept.property_lt
          (List.mem_append_left _ (List.mem_filterMap.mpr ⟨record, member, given⟩))
  | nodeId =>
      rw [kept.ids] at member
      obtain ⟨place, inside, rfl⟩ := List.mem_map.mp member
      have number := List.mem_range.mp inside
      refine List.forall_mem_singleton.mpr ?_
      rwa [toNat_ofNat_of_lt (number.trans short)]
  | relationship =>
      obtain ⟨first, second⟩ := wired.ends record member
      simp only [StoreKind.pointers, List.forall_mem_append, List.forall_mem_cons]
      refine ⟨⟨⟨first, second, ?_, nofun⟩, ?_⟩, forall_toward fun number given => ?_⟩
      · exact kept.label_lt (List.mem_append_right _ (List.mem_map.mpr ⟨record, member, rfl⟩))
      · intro target among
        -- No chain is followed here: links were below the number of records when they were written.
        obtain ⟨link, isLink, among⟩ := List.mem_flatMap.mp among
        refine forall_toward (fun number given => ?_) target among
        obtain ⟨id, rfl, rfl⟩ := Option.map_eq_some_iff.mp given
        exact kept.links record member id isLink
      · exact kept.property_lt
          (List.mem_append_right _ (List.mem_filterMap.mpr ⟨record, member, given⟩))
  | label => exact nofun
  | property =>
      obtain ⟨first, run, inRun, isRun, bound⟩ := kept.shelved.properties.exists_run member
      simp only [StoreKind.pointers, List.forall_mem_append]
      refine ⟨⟨forall_toward fun number given => ?_, forall_toward fun number given => ?_⟩, ?_⟩
      · exact Nat.lt_of_lt_of_le (isRun.next.lt inRun given) bound
      · exact Nat.lt_of_lt_of_le (isRun.previous.lt inRun given) bound
      · intro target among
        obtain ⟨block, used, among⟩ := List.mem_flatMap.mp among
        have stored : block ∈ stores.blocks ++ [] :=
          List.mem_append_left _ (List.mem_flatMap.mpr ⟨record, member, used⟩)
        exact kept.block_lt stored target among
  | string =>
      obtain ⟨first, run, inRun, isRun, bound⟩ := kept.shelved.texts.exists_run member
      exact forall_toward fun number given => Nat.lt_of_lt_of_le (isRun.next.lt inRun given) bound
  | array =>
      rw [kept.shelved.arrays] at member
      cases member
  | index => exact nofun

theorem tidy (kept : Kept graph stores) (represents : Represents stores stored)
    (wired : Wired stores) (short : (stores .node).length < RecordFile.idLimit) : stores.Tidy where
  inUse := kept.inUse represents
  pointers := kept.pointers represents wired short
  labels := kept.shelved.labels
  properties := kept.shelved.properties
  texts := by
    have texts := kept.shelved.texts
    rwa [List.append_nil] at texts
  keys := kept.shelved.keys
  known block member := (kept.shelved.blocks block (List.mem_append_left _ member)).1
  listed := by rw [kept.ids, List.length_map, List.length_range]
  numbered place record found := by
    rw [kept.ids, List.getElem?_map] at found
    obtain ⟨number, there, rfl⟩ := Option.map_eq_some_iff.mp found
    obtain ⟨inside, same⟩ := List.getElem?_eq_some_iff.mp there
    rw [List.length_range] at inside
    rw [List.getElem_range] at same
    subst same
    exact toNat_ofNat_of_lt (inside.trans short)

end Kept

/-!
## Sessions
-/

/-- Whether a call may add records. -/
def Call.adds : Call → Bool
  | .createNode _ | .createRelationship _ => true
  | .getNode _ | .getRelationship _ | .reopen _ _ => false

theorem Behaves.eq_of_reads {graph : StoredGraph} {before stores : Stores} {call : Call}
    {answer : Answer} (behaves : Behaves graph before call answer stores)
    (reads : call.adds = false) : stores = before := by
  cases behaves with
  | createNode | createRelationship => cases reads
  | nodeFound | nodeMissing | relationshipFound | relationshipMissing | reopen => rfl

namespace StoredGraph.Permits

variable {graph later : StoredGraph}

theorem eq_of_reads {call : Call} {answer : Answer} (permitted : graph.Permits call answer later)
    (reads : call.adds = false) : later = graph := by
  cases permitted with
  | nodeStored | nodeRefused | relationshipStored | relationshipRefused => cases reads
  | nodeFound | nodeMissing | relationshipFound | relationshipMissing | reopened => rfl

theorem eq_of_nodeRefused {node : Node} {error : Error}
    (permitted : graph.Permits (.createNode node) (.node (.error error)) later) :
    later = graph := by
  cases permitted
  rfl

theorem eq_of_relationshipRefused {relationship : Relationship} {error : Error}
    (permitted :
      graph.Permits (.createRelationship relationship) (.relationship (.error error)) later) :
    later = graph := by
  cases permitted
  rfl

theorem eq_of_nodeStored {node stored : Node}
    (permitted : graph.Permits (.createNode node) (.node (.ok stored)) later) :
    later = { graph with nodes := graph.nodes ++ [node] } := by
  cases permitted
  rfl

theorem eq_of_relationshipStored {relationship stored : Relationship}
    (permitted :
      graph.Permits (.createRelationship relationship) (.relationship (.ok stored)) later) :
    later = { graph with relationships := graph.relationships ++ [relationship] } := by
  cases permitted
  rfl

end StoredGraph.Permits

/-- Whether a call was refused because a file has no numbers left for new records. -/
def Answer.isFull : Answer → Bool
  | .node (.error error) => error.isFull
  | .relationship (.error error) => error.isFull
  | _ => false

namespace Session

variable {name : String} {session : Session} {before : Stores} {graph : StoredGraph}

/-- The records in a file of a collection. -/
def records (name : String) (session : Session) (kind : StoreKind) :
    Except Error (List kind.Record) :=
  (Action.runOn (do
    let collection ← Action.of (session.engine.collection name)
    let file ← collection.file kind.Record kind
    file.readAll) session.system).1

/-- Whether all files of a collection can be opened. -/
def verify (name : String) (session : Session) : Except Error Unit :=
  (Action.runOn (do
    let collection ← Action.of (session.engine.collection name)
    collection.verify) session.system).1

theorem Holds.records_eq (holds : session.Holds name before) (kind : StoreKind) :
    session.records name kind = .ok (before kind) := by
  obtain ⟨site, lists, held⟩ := holds
  have read : site.Yields (do
      let collection ← Action.of (session.engine.collection name)
      let file ← collection.file kind.Record kind
      file.readAll) before (.ok (before kind)) :=
    lists.yields_collection.bind ((Site.yields_openAs kind).bind (Site.yields_readAll kind))
  exact congrArg Prod.fst (read.runOn_eq held)

theorem Holds.verify_eq (holds : session.Holds name before) : session.verify name = .ok () := by
  obtain ⟨site, lists, held⟩ := holds
  have asked : site.Yields (do
      let collection ← Action.of (session.engine.collection name)
      collection.verify) before (.ok ()) :=
    lists.yields_collection.bind Site.yields_verify
  exact congrArg Prod.fst (asked.runOn_eq held)

theorem Holds.unique {stores : Stores} (left : session.Holds name before)
    (right : session.Holds name stores) : before = stores := by
  funext kind
  exact Except.ok.inj ((left.records_eq kind).symm.trans (right.records_eq kind))

/-- What holds of a session on a collection without loose ends. -/
structure Keeps (name : String) (session : Session) (graph : StoredGraph) (stores : Stores) :
    Prop where
  reflects : session.Reflects name graph
  holds : session.Holds name stores
  kept : Kept graph stores

theorem IsFresh.keeps_empty (fresh : session.IsFresh name) :
    session.Keeps name .empty .empty :=
  ⟨fresh.reflects_empty, fresh.holds_empty, .empty⟩

/-- Whether a call is answered as a graph permits it, leaves nothing over and only adds keys. -/
def Advances (name : String) (session : Session) (graph : StoredGraph) (before : Stores)
    (call : Call) : Prop :=
  ∃ later stores, graph.Permits call (session.step name call).1 later ∧
    Keeps name (session.step name call).2 later stores ∧ before .index <+: stores .index

namespace Keeps

theorem represents (keeps : session.Keeps name graph before) : Represents before graph.linked := by
  obtain ⟨-, others, holds, represents⟩ := keeps.reflects
  obtain rfl := holds.unique keeps.holds
  exact represents

theorem createNode (keeps : session.Keeps name graph before) (node : Node)
    (room : (session.step name (.createNode node)).1.isFull = false) :
    session.Advances name graph before (.createNode node) := by
  obtain ⟨later, permitted, reflects⟩ := keeps.reflects.step (.createNode node)
  obtain ⟨site, lists, held⟩ := keeps.holds
  have created : site.Ensures (session.engine.createNode name node) before (fun _ => True) _ :=
    lists.yields_collection.bind_ensures (Site.ensures_createNode_whole keeps.kept.shelved node)
  obtain ⟨stores, storesHeld, beside, ends⟩ := created.runOn held
  have holds := holds_of_beside lists held storesHeld beside
  rcases ends with ⟨error, refused, cause⟩ | ⟨stored, given, added⟩
  · have answered : (session.step name (.createNode node)).1 = .node (.error error) :=
      congrArg (Answer.node ∘ Except.map Prod.fst) refused
    rw [answered] at permitted room
    obtain rfl := permitted.eq_of_nodeRefused
    -- Behind the checks only a full file refuses anything.
    rcases cause with full | rfl
    · exact absurd full (Bool.eq_false_iff.mp room)
    · exact ⟨_, stores, answered ▸ permitted, ⟨reflects, holds, keeps.kept⟩, List.prefix_rfl⟩
  · have answered : (session.step name (.createNode node)).1 = .node (.ok stored.1) :=
      congrArg (Answer.node ∘ Except.map Prod.fst) given
    rw [answered] at permitted
    obtain rfl := permitted.eq_of_nodeStored
    exact ⟨_, stores, answered ▸ permitted, ⟨reflects, holds, keeps.kept.addNode added⟩, added.keys⟩

theorem createRelationship (keeps : session.Keeps name graph before) (relationship : Relationship)
    (room : (session.step name (.createRelationship relationship)).1.isFull = false) :
    session.Advances name graph before (.createRelationship relationship) := by
  obtain ⟨later, permitted, reflects⟩ := keeps.reflects.step (.createRelationship relationship)
  obtain ⟨site, lists, held⟩ := keeps.holds
  have created : site.Ensures (session.engine.createRelationship name relationship) before
      (fun _ => True) _ :=
    lists.yields_collection.bind_ensures
      (Site.ensures_createRelationship_whole keeps.represents keeps.kept.shelved relationship)
  obtain ⟨stores, storesHeld, beside, ends⟩ := created.runOn held
  have holds := holds_of_beside lists held storesHeld beside
  rcases ends with ⟨error, refused, cause⟩ | ⟨stored, given, record, added⟩
  · have answered : (session.step name (.createRelationship relationship)).1 =
        .relationship (.error error) := congrArg Answer.relationship refused
    rw [answered] at permitted room
    obtain rfl := permitted.eq_of_relationshipRefused
    rcases cause with full | rfl
    · exact absurd full (Bool.eq_false_iff.mp room)
    · exact ⟨_, stores, answered ▸ permitted, ⟨reflects, holds, keeps.kept⟩, List.prefix_rfl⟩
  · have answered : (session.step name (.createRelationship relationship)).1 =
        .relationship (.ok stored) := congrArg Answer.relationship given
    rw [answered] at permitted
    obtain rfl := permitted.eq_of_relationshipStored
    have kept := keeps.kept.addRelationship keeps.represents added
    exact ⟨_, stores, answered ▸ permitted, ⟨reflects, holds, kept⟩, added.keys⟩

theorem reads (keeps : session.Keeps name graph before) {call : Call} (reads : call.adds = false) :
    session.Advances name graph before call := by
  obtain ⟨later, permitted, reflects⟩ := keeps.reflects.step call
  obtain ⟨stores, holds, behaves⟩ := keeps.holds.step keeps.represents call
  obtain rfl := behaves.eq_of_reads reads
  obtain rfl := permitted.eq_of_reads reads
  exact ⟨later, stores, permitted, ⟨reflects, holds, keeps.kept⟩, List.prefix_rfl⟩

theorem step (keeps : session.Keeps name graph before) (call : Call)
    (room : (session.step name call).1.isFull = false) :
    session.Advances name graph before call := by
  cases call with
  | createNode node => exact keeps.createNode node room
  | createRelationship relationship => exact keeps.createRelationship relationship room
  | getNode | getRelationship | reopen => exact keeps.reads rfl

theorem run (keeps : session.Keeps name graph before) (calls : List Call)
    (room : ∀ answer ∈ (session.run name calls).1, answer.isFull = false) :
    ∃ later stores, StoredGraph.PermitsAll graph calls (session.run name calls).1 later ∧
      Keeps name (session.run name calls).2 later stores ∧ before .index <+: stores .index := by
  induction calls generalizing session graph before with
  | nil => exact ⟨graph, before, .nil graph, keeps, List.prefix_rfl⟩
  | cons call calls ih =>
      obtain ⟨first, rest⟩ := List.forall_mem_cons.mp room
      obtain ⟨_, _, permitted, middle, start⟩ := keeps.step call first
      obtain ⟨later, stores, onward, last, further⟩ := ih middle rest
      exact ⟨later, stores, .cons permitted onward, last, start.trans further⟩

theorem tidy (keeps : session.Keeps name graph before) (wired : Wired before) : before.Tidy :=
  keeps.kept.tidy keeps.represents wired (keeps.holds.length_lt .node)

end Keeps

/-- Whatever calls are made on a collection that was just made, as long as none finds a file full,
all its files can be opened, nothing in them is dangling, shared or left over, they have exactly the
records that the stored nodes and relationships take, and keys are only added from then on. -/
theorem run_tidy (fresh : session.IsFresh name) (calls : List Call)
    (room : ∀ answer ∈ (session.run name calls).1, answer.isFull = false) :
    ∃ (graph : StoredGraph) (stores : Stores),
      StoredGraph.PermitsAll .empty calls (session.run name calls).1 graph ∧
      (session.run name calls).2.verify name = .ok () ∧
      (∀ kind, (session.run name calls).2.records name kind = .ok (stores kind)) ∧ stores.Tidy ∧
      (∀ kind : StoreKind, kind ≠ .index → (stores kind).length = graph.recordCount kind) ∧
      ∀ more, (∀ answer ∈ ((session.run name calls).2.run name more).1, answer.isFull = false) →
        ∃ keys, ((session.run name calls).2.run name more).2.records name .index = .ok keys ∧
          stores .index <+: keys := by
  obtain ⟨graph, stores, permitted, keeps, -⟩ := fresh.keeps_empty.run calls room
  obtain ⟨_, holds, wired⟩ := fresh.holds_empty.run_wired represents_empty .empty calls
  obtain rfl := holds.unique keeps.holds
  refine ⟨graph, _, permitted, keeps.holds.verify_eq, keeps.holds.records_eq, keeps.tidy wired,
    keeps.kept.counts, fun more still => ?_⟩
  obtain ⟨_, later, -, onward, grows⟩ := keeps.run more still
  exact ⟨later .index, onward.holds.records_eq .index, grows⟩

/-- A node with five properties, one of them too long for one record, and a loop. Two calls are
refused. -/
theorem loop_tidy :
    let calls : List Call :=
      [.createNode { Node.named "a" with
          labels := ["L", "M"]
          properties := [⟨"k", .text ("".pushn 'x' 60)⟩, ⟨"l", .int 1⟩, ⟨"m", .bool true⟩,
            ⟨"n", .text ""⟩, ⟨"o", .int 2⟩] },
        .createRelationship (.between 0 1 "OUT"),
        .createRelationship { Relationship.between 0 0 "LOOP" with properties := [⟨"k", .int 3⟩] },
        .createNode { Node.named "b" with properties := [⟨"@p", .int 4⟩] }, .getNode 0]
    firstCollection.IsFresh "c" ∧
      (∀ answer ∈ (firstCollection.run "c" calls).1, answer.isFull = false) ∧
      ∃ stores : Stores,
        (∀ kind, (firstCollection.run "c" calls).2.records "c" kind = .ok (stores kind)) ∧
          stores.Tidy ∧
          StoreKind.all.map (fun kind => (stores kind).length) = [1, 1, 1, 2, 3, 4, 0, 6] := by
  intro calls
  have room : ∀ answer ∈ (firstCollection.run "c" calls).1, answer.isFull = false := by
    decide +kernel
  refine ⟨isFresh_firstCollection, room, ?_⟩
  obtain ⟨-, stores, -, -, records, tidy, -⟩ := run_tidy isFresh_firstCollection calls room
  have counted : ∀ kind, (((firstCollection.run "c" calls).2.records "c" kind).toOption.getD
      []).length = (stores kind).length := by
    intro kind
    rw [records kind]
    rfl
  refine ⟨stores, records, tidy, ?_⟩
  simp only [← counted]
  decide +kernel

end Session

end GraphStore
