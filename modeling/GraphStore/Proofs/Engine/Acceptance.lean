import GraphStore.Proofs.Collection.Planning
import GraphStore.Proofs.Engine.Keys
import GraphStore.Proofs.Engine.Refusal

/-!
# Nodes that are accepted

Main statement: behind any calls on a collection, wherever they were interrupted, a node for whose
records there are numbers is stored if and only if its labels, its keys and its values can be stored
at all, its new keys are not too many, and its properties stand near enough to the front of their
file to be linked.
-/

set_option autoImplicit false

namespace GraphStore

open Text

/-- Whether a node can be stored in a collection with some records. -/
structure Node.Storable (node : Node) (stores : Stores) : Prop where
  unreserved : ∀ property ∈ node.properties, property.key.toList.head? ≠ some '@'
  plannable : PropertyPlan.Plannable stores.keys (Engine.storedProperties node)
  fewLabels : node.labels.length ≤ 3
  labels : ∀ label ∈ node.labels, label ≠ "" ∧ 0 ∉ Utf8.encode label
  shortLabels : (node.labels.map Utf8.size).sum + (node.labels.length - 1) ≤ 60
  near : 4 < (Engine.storedProperties node).length →
    (stores .property).length + ((Engine.storedProperties node).length + 3) / 4 - 1 < 65535

/-!
## Checks
-/

theorem Engine.checkKeys_eq_ok_iff {properties : List Property} :
    checkKeys properties = .ok () ↔
      ∀ property ∈ properties, property.key.toList.head? ≠ some '@' := by
  unfold checkKeys
  split
  next found =>
    have member := List.mem_of_find?_eq_some found
    have refused := List.find?_some found
    constructor
    · intro impossible
      cases impossible
    · intro all
      exact absurd (eq_of_beq refused) (all _ member)
  next none =>
    refine ⟨fun _ property member same => ?_, fun _ => rfl⟩
    exact List.find?_eq_none.mp none property member (beq_iff_eq.mpr same)

theorem LabelRecord.length_payload (labels : List String) :
    (payload labels).length = (labels.map Utf8.size).sum + (labels.length - 1) := by
  induction labels with
  | nil => rfl
  | cons label rest ih =>
      cases rest with
      | nil => simp [payload, Utf8.size]
      | cons next others =>
          have joined : payload (label :: next :: others) =
              Utf8.encode label ++ 0 :: payload (next :: others) := by
            simp [payload, List.intercalate]
          rw [joined, List.length_append, List.length_cons, ih]
          simp only [List.map_cons, List.sum_cons, List.length_cons, Utf8.size]
          omega

theorem Collection.exists_labelRecord?_iff {labels : List String} :
    (∃ record, labelRecord? labels = .ok record) ↔
      labels.length ≤ 3 ∧ (∀ label ∈ labels, label ≠ "" ∧ 0 ∉ Utf8.encode label) ∧
        (labels.map Utf8.size).sum + (labels.length - 1) ≤ 60 := by
  have each (label : String) : LabelRecord.isLabel label = true ↔
      label ≠ "" ∧ 0 ∉ Utf8.encode label := by
    rw [LabelRecord.isLabel_iff, Ne, Utf8.encode_eq_nil_iff]
  unfold labelRecord?
  split
  next none =>
    obtain rfl := List.isEmpty_iff.mp none
    exact ⟨fun _ => ⟨Nat.zero_le _, nofun, Nat.zero_le _⟩, fun _ => ⟨_, rfl⟩⟩
  next =>
    have made : (∃ record, some <$> LabelRecord.ofLabels labels = .ok record) ↔
        ∃ record, LabelRecord.ofLabels labels = .ok record := by
      cases LabelRecord.ofLabels labels with
      | error error => exact ⟨fun given => (nomatch given), fun given => (nomatch given)⟩
      | ok record => exact ⟨fun _ => ⟨record, rfl⟩, fun _ => ⟨some record, rfl⟩⟩
    rw [made, ← LabelRecord.length_payload]
    simp only [LabelRecord.ofLabels_eq_ok_iff, each, LabelRecord.maxLabels, LabelRecord.slotWidth]
    exact ⟨fun given => ⟨given.choose_spec.1, given.choose_spec.2.1, given.choose_spec.2.2.1⟩,
      fun given => ⟨_, given.1, given.2.1, given.2.2, rfl⟩⟩

/-!
## Creating nodes
-/

namespace Site

variable {site : Site} {stores : Stores} {node : Node} {system last : FileSystem}

/-- The records of a list of properties are near enough if a plan of it is made. -/
theorem near_iff {count : Nat} {listed : List Property} :
    (4 < listed.length → count + (listed.length + 3) / 4 - 1 < 65535) ↔
      (1 < sliceCount blocksPerRecord listed.length →
        count + sliceCount blocksPerRecord listed.length ≤ Collection.shortIdLimit) := by
  simp only [sliceCount, blocksPerRecord, Collection.shortIdLimit, absentShortId,
    UInt16.reduceToNat]
  omega

/-- A list that can be planned is, where its records are near enough. -/
theorem yields_planProperties_of_addAll {properties : List Property} {plan : PropertyPlan}
    (added : PropertyPlan.addAll stores.keys [] ⟨[], []⟩ properties = .ok plan)
    (near : 1 < plan.recordCount →
      (stores .property).length + plan.recordCount ≤ Collection.shortIdLimit) :
    site.Yields (site.collection.planProperties properties) stores (.ok plan) := by
  refine yields_keyNames.bind ((Yields.of added).bind ?_)
  by_cases many : 1 < plan.recordCount
  · have room : ¬Collection.shortIdLimit ≤ (stores .property).length + plan.recordCount - 1 := by
      have := near many
      omega
    simp only [many, ↓reduceIte]
    refine (yields_openAs .property).bind ((yields_count .property).bind ?_)
    simp only [room, ↓reduceIte]
    exact .pure plan
  · simp only [many, ↓reduceIte]
    exact .pure plan

theorem Holds.storable_of_createNode (held : site.Holds stores system) (few : stores.FewKeys)
    {stored : Node × NodeRecord}
    (ran : (site.collection.createNode node).runOn system = (.ok stored, last)) :
    node.Storable stores := by
  obtain ⟨_, checked, labelled⟩ := Action.exists_of_runOn_of ran
  obtain ⟨record, made, planning⟩ := Action.exists_of_runOn_of labelled
  obtain ⟨plan, middle, planned, _⟩ := Action.exists_of_runOn_bind planning
  obtain ⟨fewLabels, labels, shortLabels⟩ := Collection.exists_labelRecord?_iff.mp ⟨record, made⟩
  have known : stores.keys.length ≤ maxKeys := by
    rw [Stores.keys, List.length_map]
    exact few
  rcases @yields_planProperties site stores (Engine.storedProperties node) with
    ⟨error, denied⟩ | ⟨same, given, plans, added, near⟩
  · rw [denied.runOn_eq held] at planned
    cases planned
  refine ⟨Engine.checkKeys_eq_ok_iff.mp checked, (PropertyPlan.plannable_iff known).mp ⟨same, added⟩,
    fewLabels, labels, shortLabels, near_iff.mpr ?_⟩
  rw [PropertyPlan.recordCount, plans.length_eq] at near
  exact near

theorem Holds.exists_createNode (held : site.Holds stores system) (few : stores.FewKeys)
    (room : ∀ kind, (stores kind).length + node.recordCount kind < RecordFile.idLimit)
    (storable : node.Storable stores) :
    ∃ stored later, (site.collection.createNode node).runOn system = (.ok stored, later) := by
  have known : stores.keys.length ≤ maxKeys := by
    rw [Stores.keys, List.length_map]
    exact few
  have allowed := Engine.checkKeys_eq_ok_iff.mpr storable.unreserved
  obtain ⟨record, made⟩ := Collection.exists_labelRecord?_iff.mpr
    ⟨storable.fewLabels, storable.labels, storable.shortLabels⟩
  obtain ⟨plan, added⟩ := (PropertyPlan.plannable_iff known).mpr storable.plannable
  obtain ⟨-, entries, same, plans⟩ := PropertyPlan.addAll_eq_ok added
  rw [List.nil_append] at same
  subst same
  have near : 1 < plan.recordCount →
      (stores .property).length + plan.recordCount ≤ Collection.shortIdLimit := by
    rw [PropertyPlan.recordCount, plans.length_eq]
    exact near_iff.mp storable.near
  have planned : site.Yields _ stores _ := yields_planProperties_of_addAll added near
  have checked := (PropertyPlan.checked_empty stores.keys).addAll added
  have completes : site.opened.Completes _ (fun kind => (stores kind).length) _ :=
    Opened.completes_storeNode made checked (List.length_map _)
      (PropertyPlan.map_snd_of_plans plans) near room
  obtain ⟨stored, _, later, ran, -, -⟩ := completes system held.sized
  refine ⟨stored, later, ?_⟩
  rw [Collection.createNode, allowed, made]
  rw [Action.runOn_bind_of_ok () system rfl, Action.runOn_bind_of_ok record system rfl,
    Action.runOn_bind_of_ok plan system (planned.runOn_eq held),
    Action.runOn_bind_of_ok () system (yields_verify.runOn_eq held)]
  exact ran

end Site

namespace Session

variable {name : String} {session later : Session}

/-- Behind any calls on a collection, a node for whose records there are numbers is stored if and
only if it can be stored. -/
theorem createNode_succeeds_iff (fresh : session.IsFresh name)
    (reaches : session.Reaches name later) :
    ∃ stores : Stores, (∀ kind, later.records name kind = .ok (stores kind)) ∧
      ∀ node : Node,
        (∀ kind, (stores kind).length + node.recordCount kind < RecordFile.idLimit) →
        ((∃ stored, ((later.engine.createNode name node).runOn later.system).1 = .ok stored) ↔
          node.Storable stores) := by
  obtain ⟨stores, graph, holds, -, few⟩ := fresh.numbers.reaches reaches
  refine ⟨stores, holds.records_eq, fun node room => ?_⟩
  obtain ⟨site, lists, held⟩ := holds
  have asked : site.Yields _ stores _ := lists.yields_collection
  have found := asked.runOn_eq held
  have same : (later.engine.createNode name node).runOn later.system =
      (site.collection.createNode node).runOn later.system :=
    Action.runOn_bind_of_ok site.collection later.system found _
  rw [same]
  constructor
  · intro given
    obtain ⟨stored, given⟩ := given
    cases ran : (site.collection.createNode node).runOn later.system with
    | mk outcome last =>
        rw [ran] at given
        obtain rfl : outcome = .ok stored := given
        exact held.storable_of_createNode few ran
  · intro storable
    obtain ⟨stored, last, ran⟩ := held.exists_createNode few room storable
    exact ⟨stored, congrArg Prod.fst ran⟩

/-- A node with fifteen properties. -/
def manyKeys : Node :=
  { Node.named "a" with
    name := none
    properties := ["a", "b", "c", "d", "e", "f", "g", "h", "i", "j", "k", "l", "m", "n", "o"].map
      fun key => ⟨key, .bool true⟩ }

/-- Behind fifteen keys one more can be stored, that of the name, but no two. -/
theorem createNode_succeeds_iff_many_keys :
    ∃ later stores, firstCollection.IsFresh "c" ∧ firstCollection.Reaches "c" later ∧
      (∀ kind, later.records "c" kind = .ok (stores kind)) ∧ (Node.named "x").Storable stores ∧
      ¬({ Node.named "x" with properties := [⟨"p", .int 1⟩] } : Node).Storable stores := by
  have reaches : firstCollection.Reaches "c" _ := Reaches.refl.next (.whole (.createNode manyKeys))
  obtain ⟨stores, records, accepts⟩ := createNode_succeeds_iff isFresh_firstCollection reaches
  have room (node : Node) (enough : ∀ kind ∈ StoreKind.all,
      (((firstCollection.step "c" (.createNode manyKeys)).2.records "c" kind).toOption.getD
        []).length + node.recordCount kind < RecordFile.idLimit) :
      ∀ kind, (stores kind).length + node.recordCount kind < RecordFile.idLimit := by
    intro kind
    have here := enough kind kind.mem_all
    rw [records kind] at here
    exact here
  refine ⟨_, stores, isFresh_firstCollection, reaches, records, ?_, fun storable => ?_⟩
  · exact (accepts _ (room _ (by decide +kernel))).mp
      ⟨({ Node.named "x" with id := some 1 }, .fresh none (some 4)),
        eq_ok_of_toOption (by decide +kernel)⟩
  · obtain ⟨stored, given⟩ := (accepts _ (room _ (by decide +kernel))).mpr storable
    have refused : ((firstCollection.step "c" (.createNode manyKeys)).2.engine.createNode "c"
        { Node.named "x" with properties := [⟨"p", .int 1⟩] }
        |>.runOn (firstCollection.step "c" (.createNode manyKeys)).2.system).1.toOption = none := by
      decide +kernel
    rw [given] at refused
    cases refused

end Session

end GraphStore
