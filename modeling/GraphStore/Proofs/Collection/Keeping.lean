import GraphStore.Proofs.Collection.Properties
import GraphStore.Proofs.Collection.Opening
import GraphStore.Proofs.Store.InStep

/-!
# Work that keeps a property of the records

Whatever is added to the files of a collection or written over in them, they hold records again.
Main statements: a property that does not look at some kinds of records is kept by all that adds
records of these kinds, wherever it fails or stops.
-/

set_option autoImplicit false

namespace GraphStore

open StoredRecord

/-- Whether a property of the records does not depend on those of some kind. -/
def Stores.Ignores (held : Stores → Prop) (kind : StoreKind) : Prop :=
  ∀ (stores : Stores) (records : List kind.Record), held stores → held (stores.set kind records)

theorem Writable.length_encode {kind : StoreKind} {record : kind.Record}
    (writable : Writable record) (endian : Endian) :
    (encode endian record).length = size kind.Record := by
  obtain ⟨again, faithful, same⟩ := writable
  rw [← same, faithful.length_encode]

/-- Records that can be written are written as as many records that can be read back. -/
theorem Writable.exists_faithful {kind : StoreKind} {records : List kind.Record}
    (writable : ∀ record ∈ records, Writable record) :
    ∃ again : List kind.Record, (∀ record ∈ again, Faithful record) ∧
      again.length = records.length ∧
      ∀ endian, again.flatMap (encode endian) = records.flatMap (encode endian) := by
  obtain ⟨again, faithful, same⟩ := Writable.exists_flatMap writable
  refine ⟨again, faithful, ?_, same⟩
  have widths := congrArg List.length (same .little)
  rw [length_flatMap_of_forall fun record member => (faithful record member).length_encode .little,
    length_flatMap_of_forall fun record member => (writable record member).length_encode .little]
    at widths
  exact Nat.eq_of_mul_eq_mul_right kind.size_pos widths

namespace Site

variable {site : Site} {α β : Type} {held : Stores → Prop}

/-- Whether an action keeps a property of the records, wherever it holds and wherever the action
stops. -/
def Maintains (site : Site) (held : Stores → Prop) (action : Action α) : Prop :=
  ∀ before, held before → site.Ensures action before held fun _ stores => held stores

/-!
## Putting actions together
-/

theorem maintains_of_asks {action : Action α} (asks : action.Asks) :
    site.Maintains held action := by
  intro before holds system _
  refine ⟨[], ?_, nofun, holds⟩
  rw [asks system]
  exact .nil

theorem Maintains.pure (value : α) : site.Maintains held (pure value) :=
  maintains_of_asks (Action.asks_pure value)

theorem Maintains.of (result : Except Error α) : site.Maintains held (.of result) :=
  maintains_of_asks (Action.asks_of result)

theorem Maintains.bind {action : Action α} {next : α → Action β}
    (first : site.Maintains held action) (rest : ∀ value, site.Maintains held (next value)) :
    site.Maintains held (action >>= next) := by
  intro before holds
  refine Ensures.bind (first before holds) ?_ ?_
  · exact fun value stores kept => rest value stores kept
  · exact fun _ _ kept => kept

/-- What follows a computation may use what it gives. -/
theorem Maintains.of_bind {result : Except Error α} {next : α → Action β}
    (rest : ∀ value, result = .ok value → site.Maintains held (next value)) :
    site.Maintains held (Action.of result >>= next) := by
  intro before holds
  exact Ensures.of_bind (fun value given => rest value given before holds) fun _ _ => holds

theorem Maintains.open_bind (kind : StoreKind) {next : RecordFile kind.Record → Action α}
    (rest : site.Maintains held (next (site.file kind))) :
    site.Maintains held (site.collection.file kind.Record kind >>= next) :=
  fun before holds => (yields_openAs kind).bind_ensures (rest before holds)

theorem Maintains.mapM {items : List α} {action : α → Action β}
    (each : ∀ item ∈ items, site.Maintains held (action item)) :
    site.Maintains held (items.mapM action) := by
  induction items with
  | nil =>
      rw [List.mapM_nil]
      exact .pure []
  | cons item rest ih =>
      obtain ⟨here, others⟩ := List.forall_mem_cons.mp each
      rw [List.mapM_cons]
      exact here.bind fun value => (ih others).bind fun values => .pure (value :: values)

/-!
## Single files
-/

section

variable {kind : StoreKind} (ignores : Stores.Ignores held kind)
include ignores

theorem maintains_appendAll {records : List kind.Record}
    (writable : ∀ record ∈ records, Writable record) :
    site.Maintains held ((site.file kind).appendAll records) := by
  obtain ⟨again, faithful, length, same⟩ := Writable.exists_faithful writable
  have rewritten : (site.file kind).appendAll records = (site.file kind).appendAll again := by
    simp only [RecordFile.appendAll, length, same]
  intro before holds
  rw [rewritten]
  refine ensures_appendAll (fun _ => faithful) (fun _ _ _ => holds) fun _ => ?_
  exact ⟨ignores before _ holds, ignores before _ holds⟩

theorem maintains_append {record : kind.Record} (writable : Writable record) :
    site.Maintains held ((site.file kind).append record) :=
  maintains_appendAll ignores fun _ member => List.mem_singleton.mp member ▸ writable

theorem maintains_writeAt (id : RecordId) {record : kind.Record} (writable : Writable record) :
    site.Maintains held ((site.file kind).writeAt id record) := by
  obtain ⟨again, faithful, same⟩ := writable
  have rewritten : (site.file kind).writeAt id record = (site.file kind).writeAt id again := by
    simp only [RecordFile.writeAt, same]
  intro before holds
  rw [rewritten]
  by_cases inside : id.toNat < (before kind).length
  · exact ensures_writeAt inside faithful (ignores before _ holds) (ignores before _ holds)
  · have outside := Nat.le_of_not_lt inside
    have refused : site.Yields ((site.file kind).checkId id) before
        (.error (.notFound
          s!"{kindName kind.Record} record {id} (store holds {(before kind).length})")) := by
      refine (yields_count kind).bind ?_
      simp only [outside, ↓reduceIte]
      exact .throw _
    exact (refused.bind_error _).ensures holds

end

/-!
## Records of nodes and relationships
-/

theorem maintains_addLabel (ignores : Stores.Ignores held .label) {record : LabelRecord}
    (writable : Writable record) :
    site.Maintains held (do (← site.collection.labels).append record) :=
  .open_bind .label (maintains_append ignores writable)

theorem maintains_addNode (ignores : Stores.Ignores held .node)
    (ignoresIds : Stores.Ignores held .nodeId) (labels properties : Option RecordId) :
    site.Maintains held (site.collection.addNode labels properties) := by
  refine .open_bind .node ((maintains_append ignores (NodeRecord.writable _)).bind fun id => ?_)
  refine .open_bind .nodeId (Maintains.bind ?_ fun _ => .pure id)
  exact maintains_append ignoresIds (NodeIdRecord.faithful _).writable

theorem maintains_addRelationship (ignores : Stores.Ignores held .relationship)
    (record : RelationshipRecord) :
    site.Maintains held (site.collection.addRelationship record) :=
  .open_bind .relationship (maintains_append ignores (RelationshipRecord.writable record))

/-!
## Records of texts and properties
-/

theorem maintains_writeText (ignores : Stores.Ignores held .string) (text : String) :
    site.Maintains held (site.collection.writeText text) := by
  refine .open_bind .string ?_
  refine Maintains.bind (maintains_of_asks (RecordFile.asks_count _)) fun first => ?_
  refine .of_bind fun records _ => ?_
  exact maintains_appendAll ignores fun record _ => TextRecord.writable record

theorem maintains_writeValue (ignores : Stores.Ignores held .string) (key : Nat)
    (value : PropertyValue) : site.Maintains held (site.collection.writeValue key value) := by
  cases value with
  | bool => exact .of _
  | int => exact .of _
  | text text => exact (maintains_writeText ignores text).bind fun head => .of _

/-- What follows the keys when planned properties are written. -/
theorem maintains_writeEntries (ignoresTexts : Stores.Ignores held .string)
    (ignores : Stores.Ignores held .property) (plan : PropertyPlan) :
    site.Maintains held (do
      let blocks ← plan.entries.mapM fun entry => site.collection.writeValue entry.1 entry.2
      let file ← site.collection.properties
      let first ← file.count
      let records ← Action.of
        (Collection.propertyRecords first 0 (slices blocksPerRecord plan.recordCount blocks))
      return some (← file.appendAll records)) := by
  have values : site.Maintains held
      (plan.entries.mapM fun entry => site.collection.writeValue entry.1 entry.2) :=
    .mapM fun entry _ => maintains_writeValue ignoresTexts entry.1 entry.2
  refine values.bind fun blocks => .open_bind .property ?_
  refine Maintains.bind (maintains_of_asks (RecordFile.asks_count _)) fun first => ?_
  refine .of_bind fun records _ => ?_
  refine Maintains.bind ?_ fun head => .pure (some head)
  exact maintains_appendAll ignores fun record _ => PropertyRecord.writable record

theorem maintains_writeProperties (ignoresKeys : Stores.Ignores held .index)
    (ignoresTexts : Stores.Ignores held .string) (ignores : Stores.Ignores held .property)
    (plan : PropertyPlan) : site.Maintains held (site.collection.writeProperties plan) := by
  have entries : site.Maintains held _ := maintains_writeEntries ignoresTexts ignores plan
  rw [Collection.writeProperties]
  split
  · exact .pure none
  · split
    · refine .of_bind fun records made => .open_bind .index (Maintains.bind ?_ fun _ => entries)
      refine maintains_appendAll ignoresKeys fun record member => ?_
      obtain ⟨name, given⟩ := exists_of_mem_mapM made member
      exact (KeyRecord.faithful_of_ofName given).writable
    · exact entries

end Site

end GraphStore
