import GraphStore.Proofs.Collection.Ownership
import GraphStore.Engine.Nodes

/-!
# Additions that stay owned

What is written before the record that points at it is held by the writer alone. Main statement: the
properties of a checked plan are written unless a file is full, take no more records than they need,
and are owned by what their writer holds.
-/

set_option autoImplicit false

namespace GraphStore

/-!
## Keys of plans
-/

namespace PropertyPlan

variable {known earlier : List String} {plan planned : PropertyPlan}

/-- Whether the keys that a plan adds are new, where `earlier` has the keys of all its properties. -/
structure KeysNew (known earlier : List String) (plan : PropertyPlan) : Prop where
  distinct : (known ++ plan.newKeys).Nodup
  given : ∀ key ∈ plan.newKeys, key ∈ earlier

private theorem KeysNew.keyNumber (new : plan.KeysNew known earlier) {key : String} {number : Nat}
    (unseen : key ∉ earlier) (found : plan.keyNumber known key = .ok (number, planned)) :
    planned.KeysNew known (key :: earlier) := by
  unfold PropertyPlan.keyNumber at found
  split at found
  next =>
    cases found
    exact ⟨new.distinct, fun key member => List.mem_cons_of_mem _ (new.given key member)⟩
  next unknown =>
    obtain ⟨_, _, found⟩ := exists_of_bind_eq_ok found
    cases found
    rw [List.idxOf?_eq_none_iff] at unknown
    refine ⟨?_, ?_⟩
    · rw [← List.append_assoc, List.nodup_append]
      refine ⟨new.distinct, List.nodup_singleton _, ?_⟩
      intro former member other same equal
      obtain rfl := List.mem_singleton.mp same
      subst equal
      rcases List.mem_append.mp member with old | added
      · exact unknown old
      · exact unseen (new.given _ added)
    · intro other member
      rcases List.mem_append.mp member with former | same
      · exact List.mem_cons_of_mem _ (new.given other former)
      · exact List.mem_singleton.mp same ▸ List.mem_cons_self

private theorem KeysNew.add (new : plan.KeysNew known earlier) {property : Property}
    (added : plan.add known earlier property = .ok planned) :
    planned.KeysNew known (property.key :: earlier) := by
  rw [PropertyPlan.add] at added
  split at added
  next => cases added
  next once =>
    obtain ⟨⟨number, extended⟩, found, added⟩ := exists_of_bind_eq_ok added
    have extendedNew := new.keyNumber (by simpa using once) found
    simp only at added
    split at added
    next => cases added
    next =>
      split at added
      · obtain ⟨_, _, added⟩ := exists_of_bind_eq_ok added
        cases added
        exact ⟨extendedNew.distinct, extendedNew.given⟩
      · cases added
        exact ⟨extendedNew.distinct, extendedNew.given⟩

theorem KeysNew.addAll (new : plan.KeysNew known earlier) {properties : List Property}
    (added : plan.addAll known earlier properties = .ok planned) :
    (known ++ planned.newKeys).Nodup := by
  induction properties generalizing plan earlier with
  | nil =>
      cases added
      exact new.distinct
  | cons property rest ih =>
      obtain ⟨middle, first, added⟩ := exists_of_bind_eq_ok added
      exact ih (new.add first) added

end PropertyPlan

/-!
## Actions that only add
-/

namespace Site

variable {site : Site} {α β : Type} {before : Stores}

/-- Whether an action gives values that fit the records behind it, and fails only where a file is
full. -/
def Fills (site : Site) (action : Action α) (before : Stores) (gives : α → Stores → Prop) : Prop :=
  site.Ensures action before (fun _ => True) fun outcome stores =>
    (∀ value, outcome = .ok value → gives value stores) ∧
      ∀ error, outcome = .error error → error.isFull = true

/-- Whether an action also does nothing but add. -/
def Storing (site : Site) (action : Action α) (before : Stores) (gives : α → Stores → Prop) : Prop :=
  site.Fills action before fun value stores => Enriches before stores ∧ gives value stores

variable {gives : α → Stores → Prop}

theorem Yields.fills {action : Action α} {value : α}
    (given : site.Yields action before (.ok value)) (fits : gives value before) :
    site.Fills action before gives :=
  given.ensures ⟨fun _ same => Except.ok.inj same ▸ fits, nofun⟩

theorem Yields.bind_fills {action : Action α} {next : α → Action β} {value : α}
    {last : β → Stores → Prop} (first : site.Yields action before (.ok value))
    (rest : site.Fills (next value) before last) : site.Fills (action >>= next) before last :=
  first.bind_ensures rest

theorem Fills.imp {action : Action α} {given : α → Stores → Prop}
    (filled : site.Fills action before gives)
    (fits : ∀ value stores, gives value stores → given value stores) :
    site.Fills action before given :=
  Ensures.imp filled (fun _ _ => trivial) fun _ stores ended =>
    ⟨fun value same => fits value stores (ended.1 value same), ended.2⟩

theorem Fills.bind {action : Action α} {next : α → Action β} {last : β → Stores → Prop}
    (first : site.Fills action before gives)
    (rest : ∀ value stores, gives value stores → site.Fills (next value) stores last) :
    site.Fills (action >>= next) before last := by
  refine Ensures.bind first ?_ ?_
  · exact fun value stores ended => rest value stores (ended.1 value rfl)
  · exact fun error stores ended =>
      ⟨nofun, fun other same => Except.error.inj same ▸ ended.2 error rfl⟩

theorem fills_appendAll {kind : StoreKind} {records : List kind.Record}
    {gives : RecordId → Stores → Prop}
    (faithful : (before kind).length + records.length < RecordFile.idLimit →
      ∀ record ∈ records, StoredRecord.Faithful record)
    (fits : (before kind).length + records.length < RecordFile.idLimit →
      gives (UInt32.ofNat (before kind).length) (before.set kind (before kind ++ records))) :
    site.Fills ((site.file kind).appendAll records) before gives := by
  refine ensures_appendAll faithful ?_ fun room => ?_
  · exact fun _ error full => ⟨nofun, fun other same => Except.error.inj same ▸ full⟩
  · exact ⟨trivial, fun value same => Except.ok.inj same ▸ fits room, nofun⟩

theorem Yields.storing {action : Action α} {value : α}
    (given : site.Yields action before (.ok value)) (fits : gives value before) :
    site.Storing action before gives := given.fills ⟨.refl before, fits⟩

theorem Yields.bind_storing {action : Action α} {next : α → Action β} {value : α}
    {last : β → Stores → Prop} (first : site.Yields action before (.ok value))
    (rest : site.Storing (next value) before last) : site.Storing (action >>= next) before last :=
  first.bind_fills rest

theorem Storing.bind {action : Action α} {next : α → Action β} {last : β → Stores → Prop}
    (first : site.Storing action before gives)
    (rest : ∀ value stores, gives value stores → site.Storing (next value) stores last) :
    site.Storing (action >>= next) before last := by
  refine Fills.bind first fun value stores ended => ?_
  obtain ⟨enriched, fits⟩ := ended
  exact Fills.imp (rest value stores fits) fun _ _ onward =>
    ⟨enriched.trans onward.1, onward.2⟩

theorem storing_appendAll {kind : StoreKind} (aside : kind.IsAside) {records : List kind.Record}
    {gives : RecordId → Stores → Prop}
    (faithful : (before kind).length + records.length < RecordFile.idLimit →
      ∀ record ∈ records, StoredRecord.Faithful record)
    (fits : (before kind).length + records.length < RecordFile.idLimit →
      gives (UInt32.ofNat (before kind).length) (before.set kind (before kind ++ records))) :
    site.Storing ((site.file kind).appendAll records) before gives :=
  fills_appendAll faithful fun room => ⟨Enriches.append before kind aside records, fits room⟩

/-!
## Labels
-/

variable {labels properties : List Nat} {loose : List PropertyBlock}

/-- The number of a new record is in its pointer, which is not the one at none. -/
theorem storing_appendLabels (shelved : Shelved before labels properties loose)
    {texts : List String} {record : LabelRecord}
    (made : LabelRecord.ofLabels texts = .ok record) :
    site.Storing ((site.file .label).append record) before fun id stores =>
      some id ≠ some absentId ∧ Shelved stores (id.toNat :: labels) properties loose ∧
        stores = before.set .label (before .label ++ [record]) := by
  refine storing_appendAll (by decide) ?_ fun room => ?_
  · intro _ other member
    exact List.mem_singleton.mp member ▸ LabelRecord.faithful_of_ofLabels made
  · obtain ⟨-, -, -, rfl⟩ := LabelRecord.ofLabels_eq_ok_iff.mp made
    have short : (before .label).length < RecordFile.idLimit := by omega
    refine ⟨ofNat_ne_absentId short, ?_, rfl⟩
    rw [toNat_ofNat_of_lt short]
    exact shelved.addLabel rfl

theorem storing_labelRecord (shelved : Shelved before labels properties loose)
    {texts : List String} {record : Option LabelRecord}
    (made : Collection.labelRecord? texts = .ok record) :
    site.Storing
      (record.mapM fun record => do (← site.collection.labels).append record) before
      fun id stores => id ≠ some absentId ∧
        Shelved stores ((id.map UInt32.toNat).toList ++ labels) properties loose ∧
        (stores .label).length = (before .label).length + (if texts.isEmpty then 0 else 1) ∧
        ∀ kind, kind ≠ .label → stores kind = before kind := by
  rw [Collection.labelRecord?] at made
  split at made
  next nothing =>
    cases made
    exact (Yields.pure none).storing ⟨nofun, shelved, by simp [nothing], fun _ _ => rfl⟩
  next several =>
    obtain ⟨record, given, rfl⟩ := exists_of_map_eq_ok made
    have opened : site.Storing (do (← site.collection.labels).append record) before
        fun id stores => some id ≠ some absentId ∧
          Shelved stores (id.toNat :: labels) properties loose ∧
          stores = before.set .label (before .label ++ [record]) :=
      (yields_openAs .label).bind_storing (storing_appendLabels shelved given)
    refine opened.bind fun id stores held => (Yields.pure (some id)).storing ?_
    obtain ⟨present, laterShelved, rfl⟩ := held
    refine ⟨present, laterShelved, ?_, fun kind different => Stores.set_of_ne before different _⟩
    simp [several]

/-!
## Values
-/

theorem storing_writeText (text : String) :
    site.Storing (site.collection.writeText text) before fun head stores =>
      ∃ records, IsTextRun (before .string).length records ∧
        records.length = (Collection.textChunks text).length ∧
        head.toNat = (before .string).length ∧
        stores = before.set .string (before .string ++ records) := by
  have short : ∀ chunk ∈ Collection.textChunks text, chunk.length ≤ textChunkSize :=
    fun _ member => length_le_of_mem_slices member
  obtain ⟨records, made, width⟩ := Collection.exists_textRecords (before .string).length short
  obtain ⟨-, -, -, present⟩ :=
    Collection.textRecords_spec made (Collection.textChunks_ne_nil text)
  refine (yields_openAs .string).bind_storing ((yields_count .string).bind_storing ?_)
  refine (Yields.of made).bind_storing (storing_appendAll (by decide) ?_ fun room => ?_)
  · exact fun room record member => TextRecord.faithful (present room record member)
  · exact ⟨records, Collection.isTextRun_of_textRecords made room, width,
      toNat_ofNat_of_lt (by omega), rfl⟩

/-- A block that was made holds the value of a planned entry in the records that its writer holds
until it is stored. -/
structure Held (labels properties : List Nat) (blocks : List PropertyBlock) (texts : Nat)
    (before stores : Stores) : Prop where
  shelved : Shelved stores labels properties blocks
  texts : (stores .string).length = (before .string).length + texts
  others : ∀ kind, kind ≠ .string → stores kind = before kind

theorem storing_writeValue (shelved : Shelved before labels properties loose) {key : Nat}
    {value : PropertyValue} (known : key < (before .index).length)
    (fit : ∀ int, value = .int int → PropertyBlock.fits int.toInt = true) :
    site.Storing (site.collection.writeValue key value) before fun block stores =>
      Held labels properties (loose ++ [block]) value.textCount before stores := by
  have keyFits : key < 0x10 := Nat.lt_of_lt_of_le known shelved.keys.few
  cases value with
  | bool value =>
      obtain ⟨block, made⟩ := PropertyBlock.exists_make PropertyType.bool.tag value.toNat
        keyFits (by decide) (by cases value <;> decide)
      obtain ⟨number, tag, -⟩ := PropertyBlock.make_eq_ok made
      have type : block.type = .bool := by rw [PropertyBlock.type, tag]; rfl
      exact (Yields.of made).storing ⟨shelved.addBlock ⟨number ▸ known, .inl type⟩ (by simp [type]),
        rfl, fun _ _ => rfl⟩
  | int value =>
      have fits : PropertyBlock.fits value.toInt = true := fit value rfl
      obtain ⟨block, made⟩ := PropertyBlock.exists_make PropertyType.int.tag
        (BitVec.ofInt 36 value.toInt).toNat keyFits (by decide) (BitVec.isLt _)
      have packed : PropertyBlock.ofInt key value.toInt = .ok block := by
        rw [PropertyBlock.ofInt, if_pos fits, made]
      obtain ⟨number, tag, -⟩ := PropertyBlock.make_eq_ok made
      have type : block.type = .int := by rw [PropertyBlock.type, tag]; rfl
      exact (Yields.of packed).storing
        ⟨shelved.addBlock ⟨number ▸ known, .inr (.inl type)⟩ (by simp [type]), rfl, fun _ _ => rfl⟩
  | text text =>
      refine (storing_writeText text).bind fun head stores written => ?_
      obtain ⟨records, isRun, width, start, rfl⟩ := written
      obtain ⟨block, made⟩ := PropertyBlock.exists_make PropertyType.string.tag head.toNat
        keyFits (by decide) (Nat.lt_trans head.toNat_lt (by decide))
      obtain ⟨number, tag, points⟩ := PropertyBlock.make_eq_ok made
      have type : block.type = .string := by rw [PropertyBlock.type, tag]; rfl
      refine (Yields.of made).storing
        ⟨shelved.addText isRun (number ▸ known) type (points.trans start), ?_, ?_⟩
      · rw [Stores.set_self, List.length_append, width]
        rfl
      · exact fun kind different => Stores.set_of_ne before different _

theorem storing_writeValues {entries : List (Nat × PropertyValue)}
    (shelved : Shelved before labels properties loose)
    (known : ∀ entry ∈ entries, entry.1 < (before .index).length)
    (fit : ∀ entry ∈ entries, ∀ int, entry.2 = .int int → PropertyBlock.fits int.toInt = true) :
    site.Storing (entries.mapM fun entry => site.collection.writeValue entry.1 entry.2) before
      fun blocks stores => blocks.length = entries.length ∧
        Held labels properties (loose ++ blocks)
          (entries.map fun entry => entry.2.textCount).sum before stores := by
  induction entries generalizing before loose with
  | nil =>
      rw [List.mapM_nil]
      refine (Yields.pure []).storing ⟨rfl, ?_, rfl, fun _ _ => rfl⟩
      rwa [List.append_nil]
  | cons entry rest ih =>
      obtain ⟨knownHere, knownRest⟩ := List.forall_mem_cons.mp known
      obtain ⟨fitHere, fitRest⟩ := List.forall_mem_cons.mp fit
      rw [List.mapM_cons]
      refine (storing_writeValue shelved knownHere fitHere).bind fun block middle held => ?_
      have keys : middle .index = before .index := held.others .index (by decide)
      refine (ih held.shelved (keys ▸ knownRest) fitRest).bind fun blocks stores onward => ?_
      obtain ⟨width, heldAll⟩ := onward
      refine (Yields.pure _).storing ⟨congrArg (· + 1) width, ?_, ?_, ?_⟩
      · have shelvedAll := heldAll.shelved
        rwa [List.append_assoc, List.singleton_append] at shelvedAll
      · rw [heldAll.texts, held.texts, List.map_cons, List.sum_cons, Nat.add_assoc]
      · exact fun kind different =>
          (heldAll.others kind different).trans (held.others kind different)

/-!
## Properties
-/

private theorem BlockFits.isEmpty {keys : Nat} {block : PropertyBlock}
    (fits : BlockFits keys block) : block.isEmpty = false := by
  apply PropertyBlock.isEmpty_eq_false
  intro zero
  have empty : block.type = .empty := by rw [PropertyBlock.type, zero]; rfl
  obtain ⟨-, type⟩ := fits
  simp [empty] at type

/-- What is known of the records when planned properties are written and their writer holds them. -/
structure Written (labels properties : List Nat) (plan : PropertyPlan) (head : Option RecordId)
    (before stores : Stores) : Prop where
  present : head ≠ some absentId
  shelved : Shelved stores labels ((head.map UInt32.toNat).toList ++ properties) []
  texts : (stores .string).length =
    (before .string).length + (plan.entries.map fun entry => entry.2.textCount).sum
  records : (stores .property).length = (before .property).length + plan.recordCount
  label : stores .label = before .label

theorem storing_writeEntries {plan : PropertyPlan}
    (shelved : Shelved before labels properties []) (filled : plan.entries ≠ [])
    (known : ∀ entry ∈ plan.entries, entry.1 < (before .index).length)
    (fit : ∀ entry ∈ plan.entries, ∀ int, entry.2 = .int int →
      PropertyBlock.fits int.toInt = true)
    (near : 1 < plan.recordCount →
      (before .property).length + plan.recordCount ≤ Collection.shortIdLimit) :
    site.Storing (do
        let blocks ← plan.entries.mapM fun entry => site.collection.writeValue entry.1 entry.2
        let file ← site.collection.properties
        let first ← file.count
        let records ← Action.of
          (Collection.propertyRecords first 0 (slices blocksPerRecord plan.recordCount blocks))
        return some (← file.appendAll records)) before fun head stores =>
      Written labels properties plan head before stores := by
  refine (storing_writeValues shelved known fit).bind fun blocks middle ended => ?_
  obtain ⟨width, held⟩ := ended
  have sameProperties : middle .property = before .property := held.others .property (by decide)
  have small : ∀ chunk ∈ slices blocksPerRecord plan.recordCount blocks,
      chunk.length ≤ blocksPerRecord := fun _ member => length_le_of_mem_slices member
  obtain ⟨records, made, length⟩ := Collection.exists_propertyRecords (middle .property).length 0
    small (by rw [length_slices, Nat.zero_add, sameProperties]; exact near)
  rw [length_slices] at length
  have taken : ∀ block ∈ blocks, block.isEmpty = false := fun block member =>
    BlockFits.isEmpty (held.shelved.blocks block (List.mem_append_right _ member))
  have several : blocks ≠ [] := by
    rw [← List.length_pos_iff, width]
    exact List.length_pos_iff.mpr filled
  have needed : plan.recordCount = sliceCount blocksPerRecord blocks.length := by
    rw [width, PropertyPlan.recordCount]
  refine (yields_openAs .property).bind_storing ((yields_count .property).bind_storing ?_)
  refine (Yields.of made).bind_storing ?_
  have appended : site.Storing ((site.file .property).appendAll records) middle fun head stores =>
      Written labels properties plan (some head) before stores := by
    refine storing_appendAll (by decide) ?_ fun room => ?_
    · intro room
      exact (Collection.isPropertyRun_of_propertyRecords taken needed several made room).2.2
    · obtain ⟨isRun, spelled, -⟩ :=
        Collection.isPropertyRun_of_propertyRecords taken needed several made room
      have short : (middle .property).length < RecordFile.idLimit := by omega
      refine ⟨ofNat_ne_absentId short, ?_, ?_, ?_, ?_⟩
      · rw [Option.map_some, toNat_ofNat_of_lt short]
        exact Shelved.addProperties (by rw [spelled]; exact held.shelved) isRun
      · exact held.texts
      · rw [Stores.set_self, List.length_append, length, sameProperties]
      · exact held.others .label (by decide)
  exact appended.bind fun head stores written => (Yields.pure (some head)).storing written

/-- Planned properties are written unless a file is full. -/
theorem storing_writeProperties {plan : PropertyPlan}
    (shelved : Shelved before labels properties []) (checked : plan.Checked before.keys)
    (distinct : (before.keys ++ plan.newKeys).Nodup)
    (known : ∀ entry ∈ plan.entries, entry.1 < before.keys.length + plan.newKeys.length)
    (near : 1 < plan.recordCount →
      (before .property).length + plan.recordCount ≤ Collection.shortIdLimit) :
    site.Storing (site.collection.writeProperties plan) before fun head stores =>
      Written labels properties plan head before stores := by
  have width : before.keys.length = (before .index).length := List.length_map ..
  rw [Collection.writeProperties]
  by_cases empty : plan.entries = []
  · have nothing : plan.isEmpty = true := List.isEmpty_iff.mpr empty
    simp only [nothing, ↓reduceIte]
    refine (Yields.pure none).storing ⟨(Option.some_ne_none _).symm, shelved, ?_, ?_, rfl⟩
    · rw [empty]
      rfl
    · rw [PropertyPlan.recordCount, empty]
      rfl
  have filled : plan.isEmpty = false := by simpa [PropertyPlan.isEmpty] using empty
  simp only [filled, Bool.false_eq_true, ↓reduceIte]
  by_cases old : plan.newKeys = []
  · simp only [old, List.isEmpty_nil, Bool.not_true, Bool.false_eq_true, ↓reduceIte]
    rw [old, List.length_nil, Nat.add_zero, width] at known
    exact storing_writeEntries shelved empty known checked.ints near
  have more : (!plan.newKeys.isEmpty) = true := by simpa using old
  simp only [more, ↓reduceIte]
  obtain ⟨records, made⟩ := exists_mapM_eq_ok checked.names
  have names : records.map KeyRecord.name = plan.newKeys := by
    apply map_eq_of_mapM_eq_ok _ made
    intro name record given
    rw [(KeyRecord.ofName_eq_ok_iff.mp given).2.2]
  have length : records.length = plan.newKeys.length := by rw [← names, List.length_map]
  have fit : KeysFit (before .index ++ records) := by
    refine ⟨?_, ?_, ?_⟩
    · rw [List.length_append, length, ← width]
      exact checked.few old
    · rw [List.map_append, names]
      exact distinct
    · refine List.forall_mem_append.mpr ⟨shelved.keys.each, fun record member => ?_⟩
      obtain ⟨name, given⟩ := exists_of_mem_mapM made member
      obtain ⟨nonempty, short, rfl⟩ := KeyRecord.ofName_eq_ok_iff.mp given
      have bytes : Text.Utf8.encode name ≠ [] := by
        rw [Ne, Text.Utf8.encode_eq_nil_iff, ← String.isEmpty_iff, nonempty]
        decide
      exact ⟨rfl, List.length_pos_iff.mpr bytes, short⟩
  refine (Yields.of made).bind_storing ((yields_openAs .index).bind_storing ?_)
  have appended : site.Storing ((site.file .index).appendAll records) before fun _ stores =>
      stores = before.set .index (before .index ++ records) := by
    refine storing_appendAll (by decide) ?_ fun _ => rfl
    intro _ record member
    obtain ⟨name, given⟩ := exists_of_mem_mapM made member
    exact KeyRecord.faithful_of_ofName given
  refine appended.bind fun _ stores same => ?_
  subst same
  have written : site.Storing _ _ _ := storing_writeEntries (shelved.addKeys fit) empty
    (by
      rw [Stores.set_self, List.length_append, length, ← width]
      exact known)
    checked.ints near
  refine Fills.imp written fun head stores ended => ?_
  obtain ⟨enriched, present, shelvedLater, texts, count, label⟩ := ended
  exact ⟨enriched, present, shelvedLater, texts, count, label⟩

end Site

end GraphStore
