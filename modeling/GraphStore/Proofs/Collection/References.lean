import GraphStore.Proofs.Collection.Answers
import GraphStore.Proofs.Engine.Chains
import Mathlib.Algebra.Group.Nat.Defs

/-!
# Blocks that point at texts

What a list of properties says of the blocks from which it was read, whatever the files hold. A block
has 36 bits for its value and a record has a number of 32, so that a reference counts by its low 32
bits. Main statements: the properties are those of the blocks along the chain, one for each and in
order, and a reference to a record that is not there is an error.
-/

set_option autoImplicit false

namespace GraphStore

open Text

namespace Action

variable {α β : Type} {system last : FileSystem}

/-- What is asked for each item of a list is found on the same file system. -/
theorem forall₂_of_runOn_mapM {work : α → Action β} (asks : ∀ item, (work item).Asks)
    {items : List α} {values : List β}
    (succeeded : (items.mapM work).runOn system = (.ok values, last)) :
    List.Forall₂ (fun item value => (work item).runOn system = (.ok value, system)) items
      values := by
  induction items generalizing values last with
  | nil =>
      cases succeeded
      exact .nil
  | cons item rest ih =>
      rw [List.mapM_cons] at succeeded
      obtain ⟨value, here, onward⟩ := (asks item).exists_of_runOn_bind succeeded
      obtain ⟨others, middle, ran, returned⟩ := exists_of_runOn_bind onward
      cases returned
      exact .cons here (ih ran)

end Action

namespace Collection

variable {collection : Collection} {system last : FileSystem} {head : RecordId}

/-- Whether the pieces of a text stand along the chain from a record. -/
def TextStands (collection : Collection) (system : FileSystem) (head : RecordId) (text : String) :
    Prop :=
  ∃ pieces, collection.TextRoute system (some head) pieces none ∧
    (pieces.map fun entry => entry.2.data).flatten = Utf8.encode text

theorem TextStands.exists_finds {text : String} (stands : collection.TextStands system head text) :
    ∃ record, collection.Finds system .string head record := by
  obtain ⟨pieces, route, -⟩ := stands
  cases route with
  | cons found _ => exact ⟨_, found⟩

/-- Whether a value is that of a block. -/
def ReadsValue (collection : Collection) (system : FileSystem) (block : PropertyBlock) :
    PropertyValue → Prop
  | .bool value => block.type = .bool ∧ value = (block.value != 0)
  | .int value => block.type = .int ∧ value.toInt = block.value.toInt
  | .text value =>
      block.type = .string ∧
        ∃ head : RecordId, head.toNat = block.value.toNat % 2 ^ 32 ∧
          collection.TextStands system head value

theorem ReadsValue.exists_textStands {block : PropertyBlock} {value : PropertyValue}
    (reads : collection.ReadsValue system block value) (type : block.type = .string) :
    ∃ (head : RecordId) (text : String), head.toNat = block.value.toNat % 2 ^ 32 ∧
      collection.TextStands system head text := by
  cases value with
  | bool => exact nomatch type.symm.trans reads.1
  | int => exact nomatch type.symm.trans reads.1
  | text text =>
      obtain ⟨-, head, low, stands⟩ := reads
      exact ⟨head, text, low, stands⟩

/-- Whether a property is that of a block, with the name of its key. -/
def ReadsBlock (collection : Collection) (system : FileSystem) (keys : List String)
    (block : PropertyBlock) (property : Property) : Prop :=
  keys[block.key.toNat]? = some property.key ∧ collection.ReadsValue system block property.value

/-- A text that is read stands where its head points. -/
theorem textStands_of_readText {text : String}
    (read : (collection.readText head).runOn system = (.ok text, last)) :
    collection.TextStands system head text := by
  obtain rfl := (asks_readText head).same read
  obtain ⟨file, opened, -⟩ := (asks_file .string).exists_of_runOn_bind read
  obtain ⟨content, count, whole, -⟩ := exists_isWhole_of_runOn_file opened
  exact (whole.readText_eq_ok_iff head text).mp read

theorem readsBlock_of_readBlock {keys : List String} {id : RecordId} {block : PropertyBlock}
    {property : Property}
    (read : (collection.readBlock keys id block).runOn system = (.ok property, last)) :
    collection.ReadsBlock system keys block property := by
  unfold readBlock at read
  split at read
  · cases read
  next key named =>
    split at read
    next type =>
      cases read
      exact ⟨named, type, rfl⟩
    next type =>
      cases read
      exact ⟨named, type, Site.toInt_ofInt_toInt block⟩
    next type =>
      obtain ⟨text, found, returned⟩ := (asks_readText _).exists_of_runOn_bind read
      cases returned
      refine ⟨named, type, _, ?_, textStands_of_readText found⟩
      exact UInt32.toNat_ofNat'
    next => cases read

/-- A list of properties that is read has one property for each block that is taken, in the order
of the records along the chain and of the blocks in a record. -/
theorem exists_forall₂_of_readProperties {listed : List Property}
    (read : (collection.readProperties (some head)).runOn system = (.ok listed, last)) :
    ∃ keys visited, collection.keyNames.runOn system = (.ok keys, system) ∧
      collection.PropertyRoute system (some head) visited none ∧
      List.Forall₂ (collection.ReadsBlock system keys)
        (visited.flatMap fun entry => entry.2.used) listed := by
  obtain ⟨file, opened, -⟩ := (asks_file .property).exists_of_runOn_bind read
  obtain ⟨content, count, whole, -⟩ := exists_isWhole_of_runOn_file opened
  obtain ⟨visited, route⟩ := whole.exists_route_of_readProperties read
  rw [whole.readProperties_of_route route] at read
  obtain ⟨keys, named, read⟩ := asks_keyNames.exists_of_runOn_bind read
  have asks (entry : RecordId × PropertyRecord) :
      (entry.2.used.mapM (collection.readBlock keys entry.1)).Asks :=
    Action.asks_mapM (asks_readBlock keys entry.1)
  obtain ⟨found, ran, returned⟩ := (Action.asks_mapM asks).exists_of_runOn_bind read
  cases returned
  refine ⟨keys, visited, named, route, ?_⟩
  have lists : List.Forall₂ (List.Forall₂ (collection.ReadsBlock system keys))
      (visited.map fun entry => entry.2.used) found := by
    rw [List.forall₂_map_left_iff]
    refine (Action.forall₂_of_runOn_mapM asks ran).imp fun entry properties listed => ?_
    refine (Action.forall₂_of_runOn_mapM (asks_readBlock keys entry.1) listed).imp ?_
    exact fun block property => readsBlock_of_readBlock
  rw [List.flatMap_def]
  exact List.rel_flatten lists

/-- A reference to a record that is not found is an error. -/
theorem exists_error_of_dangling {visited : List (RecordId × PropertyRecord)}
    {stop : Option RecordId} {entry : RecordId × PropertyRecord} {block : PropertyBlock}
    (route : collection.PropertyRoute system (some head) visited stop) (member : entry ∈ visited)
    (among : block ∈ entry.2.used) (type : block.type = .string)
    (missing : ∀ (id : RecordId) record, id.toNat = block.value.toNat % 2 ^ 32 →
      ¬collection.Finds system .string id record) :
    ∃ error, (collection.readProperties (some head)).runOn system = (.error error, system) := by
  refine (asks_readProperties (some head)).exists_error_of_ne_ok fun listed read => ?_
  obtain ⟨keys, whole, -, ended, each⟩ := exists_forall₂_of_readProperties read
  obtain ⟨rest, rfl, -⟩ := ended.exists_rest finds_unique route
  have taken : block ∈ (visited ++ rest).flatMap fun entry => entry.2.used :=
    List.mem_flatMap.mpr ⟨entry, List.mem_append_left rest member, among⟩
  obtain ⟨number, inside, rfl⟩ := List.getElem_of_mem taken
  obtain ⟨-, value⟩ := each.get inside (each.length_eq ▸ inside)
  obtain ⟨id, text, low, stands⟩ := value.exists_textStands type
  obtain ⟨record, found⟩ := stands.exists_finds
  exact missing id record low found

/-- Whatever the files hold, a list of properties that is read has one property for each block that
is taken, record by record and slot by slot, and each has the value of its block, where a text is
the one at the low 32 bits of the value. A text that is not there is an error. -/
theorem readProperties_reads_blocks (collection : Collection) (system : FileSystem)
    (head : RecordId) :
    (∀ listed last,
      (collection.readProperties (some head)).runOn system = (.ok listed, last) →
        ∃ keys visited, collection.keyNames.runOn system = (.ok keys, system) ∧
          collection.PropertyRoute system (some head) visited none ∧
          List.Forall₂ (collection.ReadsBlock system keys)
            (visited.flatMap fun entry => entry.2.used) listed) ∧
      ∀ visited stop, collection.PropertyRoute system (some head) visited stop →
        ∀ entry ∈ visited, ∀ block ∈ entry.2.used, block.type = .string →
          (∀ (id : RecordId) record, id.toNat = block.value.toNat % 2 ^ 32 →
            ¬collection.Finds system .string id record) →
          ∃ error,
            (collection.readProperties (some head)).runOn system = (.error error, system) :=
  ⟨fun _ _ => exists_forall₂_of_readProperties,
    fun _ _ route _ member _ => exists_error_of_dangling route member⟩

/-- A record with one property, whose block points at a text with the value 2^32. -/
private def wideRecord : PropertyRecord :=
  { inUse := true, next := none, previous := none
    blocks := #v[⟨0, 3, 0x100000000⟩, .vacant, .vacant, .vacant] }

/-- The record, and a text that begins in record 0. -/
private def wideStores : Stores
  | .property => [wideRecord]
  | .string => [{ inUse := true, next := none, data := Utf8.encode "secret", data_le := by decide }]
  | .index => [{ inUse := true, name := "k" }]
  | _ => []

private def wideSystem : FileSystem := systemOf .little wideStores

private theorem runOn_readProperties_wideSystem :
    ((loneSite .little).collection.readProperties (some 0)).runOn wideSystem =
      (.ok [⟨"k", .text "secret"⟩], wideSystem) :=
  (asks_readProperties _).runOn_of_fst (eq_ok_of_toOption (by decide +kernel))

theorem readProperties_reads_blocks_wideSystem :
    ∃ keys visited,
      (loneSite .little).collection.keyNames.runOn wideSystem = (.ok keys, wideSystem) ∧
      (loneSite .little).collection.PropertyRoute wideSystem (some 0) visited none ∧
      List.Forall₂ ((loneSite .little).collection.ReadsBlock wideSystem keys)
        (visited.flatMap fun entry => entry.2.used) [⟨"k", .text "secret"⟩] :=
  (readProperties_reads_blocks _ _ _).1 _ _ runOn_readProperties_wideSystem

/-- There is one text, in record 0. The value 2^32 is not its number, and still it is read. -/
theorem wideReference_yields_text :
    let collection := (loneSite .little).collection
    (do (← collection.properties).readInUse 0).runOn wideSystem = (.ok wideRecord, wideSystem) ∧
      wideRecord.used.map PropertyBlock.type = [.string] ∧
      (wideRecord.used.map fun block => block.value.toNat) = [2 ^ 32] ∧
      (do (← collection.texts).count).runOn wideSystem = (.ok 1, wideSystem) ∧
      (collection.readProperties (some 0)).runOn wideSystem =
        (.ok [⟨"k", .text "secret"⟩], wideSystem) := by
  intro collection
  have read : (do (← collection.properties).readInUse 0 : Action PropertyRecord).Asks :=
    (asks_file .property).bind fun file => asks_readInUse file 0
  have counts : (do (← collection.texts).count : Action Nat).Asks :=
    (asks_file .string).bind fun file => RecordFile.asks_count file
  refine ⟨read.runOn_of_fst (eq_ok_of_toOption (by decide +kernel)), by decide, by decide,
    counts.runOn_of_fst (eq_ok_of_toOption (by decide +kernel)), ?_⟩
  exact runOn_readProperties_wideSystem

end Collection

end GraphStore
