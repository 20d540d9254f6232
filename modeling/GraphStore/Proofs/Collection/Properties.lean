import GraphStore.Collection.Properties
import GraphStore.Proofs.Collection.Texts
import GraphStore.Proofs.Record.Block

/-!
# Properties that are read back

A plan finds a number for every key. What is written from it is a chain of records whose blocks
spell the properties, and stays readable whatever is added behind it.
-/

set_option autoImplicit false

namespace GraphStore

/-!
## Stored properties
-/

/-- The keys of a collection in the order of their numbers. -/
def Stores.keys (stores : Stores) : List String := (stores .index).map KeyRecord.name

/-- Whether a block holds a value. -/
def HoldsValue (stores : Stores) (block : PropertyBlock) : PropertyValue → Prop
  | .bool value => block.tag.toNat = 1 ∧ (block.value != 0) = value
  | .int value => block.tag.toNat = 2 ∧ block.toInt = value.toInt
  | .text value => block.tag.toNat = 3 ∧ TextAt stores (UInt32.ofNat block.value.toNat) value

/-- Whether a block is that of a property. -/
structure Spells (stores : Stores) (block : PropertyBlock) (property : Property) : Prop where
  key : stores.keys[block.key.toNat]? = some property.key
  value : HoldsValue stores block property.value

/-- Whether a list of properties begins in a record. -/
def PropertiesAt (stores : Stores) (head : Option RecordId) (properties : List Property) : Prop :=
  ∃ visited, Chain (stores .property) (fun record => record.next.map UInt16.toUInt32) head visited ∧
    (∀ entry ∈ visited, entry.2.inUse = true) ∧
    List.Forall₂ (Spells stores) (visited.flatMap fun entry => entry.2.used) properties

section

variable {before stores : Stores}

theorem Grows.keys (grows : Grows before stores) : before.keys <+: stores.keys :=
  (grows .index (by decide)).map KeyRecord.name

theorem HoldsValue.grown {block : PropertyBlock} {value : PropertyValue}
    (held : HoldsValue before block value) (grows : Grows before stores) :
    HoldsValue stores block value := by
  cases value with
  | bool => exact held
  | int => exact held
  | text => exact ⟨held.1, held.2.grown grows⟩

theorem HoldsValue.isEmpty {block : PropertyBlock} {value : PropertyValue}
    (held : HoldsValue stores block value) : block.isEmpty = false := by
  apply PropertyBlock.isEmpty_eq_false
  cases value with
  | bool => rw [held.1]; decide
  | int => rw [held.1]; decide
  | text => rw [held.1]; decide

theorem Spells.grown {block : PropertyBlock} {property : Property}
    (spelled : Spells before block property) (grows : Grows before stores) :
    Spells stores block property where
  key := getElem?_of_grown grows.keys spelled.key
  value := spelled.value.grown grows

theorem PropertiesAt.grown {head : Option RecordId} {properties : List Property}
    (held : PropertiesAt before head properties) (grows : Grows before stores) :
    PropertiesAt stores head properties := by
  obtain ⟨visited, chain, taken, spelled⟩ := held
  exact ⟨visited, chain.extended (grows .property (by decide)), taken,
    spelled.imp fun _ _ held => held.grown grows⟩

end

/-!
## Plans
-/

namespace PropertyPlan

variable {known : List String} {plan planned : PropertyPlan}

private theorem keyNumber_eq_ok {key : String} {number : Nat}
    (found : plan.keyNumber known key = .ok (number, planned)) :
    planned.entries = plan.entries ∧ plan.newKeys <+: planned.newKeys ∧
      (known ++ planned.newKeys)[number]? = some key := by
  unfold keyNumber at found
  split at found
  next place among =>
    cases found
    obtain ⟨inside, same, -⟩ := List.idxOf?_eq_some_iff.mp among
    refine ⟨rfl, List.prefix_refl _, ?_⟩
    rw [List.getElem?_append_left inside, List.getElem?_eq_getElem inside, same]
  next =>
    obtain ⟨_, _, found⟩ := exists_of_bind_eq_ok found
    cases found
    refine ⟨rfl, List.prefix_append _ _, ?_⟩
    rw [← List.append_assoc, ← List.length_append, List.getElem?_concat_length]

/-- Whether a planned entry is that of a property. -/
structure Plans (keys : List String) (entry : Nat × PropertyValue) (property : Property) : Prop where
  key : keys[entry.1]? = some property.key
  value : entry.2 = property.value

theorem Plans.extended {keys more : List String} {entry : Nat × PropertyValue} {property : Property}
    (plans : Plans keys entry property) (grown : keys <+: more) : Plans more entry property :=
  ⟨getElem?_of_grown grown plans.key, plans.value⟩

private theorem add_eq_ok {earlier : List String} {property : Property}
    (added : plan.add known earlier property = .ok planned) :
    plan.newKeys <+: planned.newKeys ∧ ∃ entry, planned.entries = plan.entries ++ [entry] ∧
      Plans (known ++ planned.newKeys) entry property := by
  rw [add] at added
  split at added
  next => cases added
  next =>
    obtain ⟨⟨number, extended⟩, found, added⟩ := exists_of_bind_eq_ok added
    obtain ⟨entries, grown, key⟩ := keyNumber_eq_ok found
    simp only at added
    split at added
    next => cases added
    next =>
      have same : planned =
          { extended with entries := extended.entries ++ [(number, property.value)] } := by
        split at added
        · obtain ⟨_, _, added⟩ := exists_of_bind_eq_ok added
          exact (Except.ok.inj added).symm
        · exact (Except.ok.inj added).symm
      subst same
      exact ⟨grown, (number, property.value), by rw [entries], key, rfl⟩

theorem addAll_eq_ok {earlier : List String} {properties : List Property}
    (added : plan.addAll known earlier properties = .ok planned) :
    plan.newKeys <+: planned.newKeys ∧ ∃ more, planned.entries = plan.entries ++ more ∧
      List.Forall₂ (Plans (known ++ planned.newKeys)) more properties := by
  induction properties generalizing plan earlier with
  | nil =>
      cases added
      exact ⟨List.prefix_refl _, [], (List.append_nil _).symm, .nil⟩
  | cons property rest ih =>
      obtain ⟨middle, first, added⟩ := exists_of_bind_eq_ok added
      obtain ⟨firstGrown, entry, firstEntries, plans⟩ := add_eq_ok first
      obtain ⟨grown, more, entries, others⟩ := ih added
      refine ⟨firstGrown.trans grown, entry :: more, ?_, .cons (plans.extended ?_) others⟩
      · rw [entries, firstEntries, List.append_assoc, List.singleton_append]
      · exact (List.prefix_append_right_inj known).mpr grown

end PropertyPlan

/-!
## Records of properties
-/

namespace Collection

private theorem shortPointer_eq_ok {id : Nat} {pointer : UInt16}
    (made : shortPointer id = .ok pointer) :
    pointer.toUInt32 = UInt32.ofNat id ∧ pointer ≠ absentShortId := by
  unfold shortPointer at made
  split at made
  next room =>
    cases made
    simp only [shortIdLimit, absentShortId, UInt16.reduceToNat] at room
    constructor
    · apply UInt32.toNat.inj
      rw [UInt16.toNat_toUInt32, UInt16.toNat_ofNat', UInt32.toNat_ofNat']
      omega
    · intro same
      have number := congrArg UInt16.toNat same
      rw [UInt16.toNat_ofNat'] at number
      simp only [absentShortId, UInt16.reduceToNat] at number
      omega
  next => cases made

/-- The pointer at a neighbour, if there is one. -/
def neighbour (absent : Prop) [Decidable absent] (id : Nat) : Except Error (Option UInt16) :=
  if absent then pure none else some <$> shortPointer id

theorem neighbour_eq_ok {absent : Prop} [Decidable absent] {id : Nat}
    {link : Option UInt16} (made : neighbour absent id = .ok link) :
    link ≠ some absentShortId ∧
      link.map UInt16.toUInt32 = if absent then none else some (UInt32.ofNat id) := by
  unfold neighbour at made
  by_cases alone : absent
  · rw [if_pos alone] at made
    cases made
    rw [if_pos alone]
    exact ⟨nofun, rfl⟩
  · rw [if_neg alone] at made
    rw [if_neg alone]
    obtain ⟨pointer, given, rfl⟩ := exists_of_map_eq_ok made
    obtain ⟨number, present⟩ := shortPointer_eq_ok given
    refine ⟨fun same => present (Option.some.inj same), ?_⟩
    rw [Option.map_some, number]

theorem propertyRecords_cons (first before : Nat) (chunk : List PropertyBlock)
    (rest : List (List PropertyBlock)) :
    propertyRecords first before (chunk :: rest) = do
      let record ← PropertyRecord.ofBlocks chunk
      let next ← neighbour (rest.isEmpty = true) (first + 1)
      let previous ← neighbour (before = 0) (first - 1)
      return { record with next, previous } ::
        (← propertyRecords (first + 1) (before + 1) rest) := by
  rw [propertyRecords]
  cases PropertyRecord.ofBlocks chunk with
  | error error => rfl
  | ok record =>
      by_cases ended : rest.isEmpty = true <;> by_cases alone : before = 0 <;>
        simp only [neighbour, ended, alone, ↓reduceIte] <;> rfl

theorem propertyRecords_spec {first before : Nat} {chunks : List (List PropertyBlock)}
    {records : List PropertyRecord} (made : propertyRecords first before chunks = .ok records)
    (filled : chunks ≠ []) (taken : ∀ chunk ∈ chunks, ∀ block ∈ chunk, block.isEmpty = false) :
    Linked (fun record => record.next.map UInt16.toUInt32) first records ∧
      records.map PropertyRecord.used = chunks ∧ (∀ record ∈ records, record.inUse = true) ∧
      ∀ record ∈ records, record.next ≠ some absentShortId ∧ record.previous ≠ some absentShortId := by
  induction chunks generalizing first before records with
  | nil => exact absurd rfl filled
  | cons chunk rest ih =>
      obtain ⟨chunkTaken, restTaken⟩ := List.forall_mem_cons.mp taken
      rw [propertyRecords_cons] at made
      obtain ⟨record, given, made⟩ := exists_of_bind_eq_ok made
      obtain ⟨next, nextMade, made⟩ := exists_of_bind_eq_ok made
      obtain ⟨previous, previousMade, made⟩ := exists_of_bind_eq_ok made
      obtain ⟨others, onward, made⟩ := exists_of_bind_eq_ok made
      cases made
      obtain ⟨inUse, used⟩ := PropertyRecord.ofBlocks_eq_ok given chunkTaken
      obtain ⟨nextPresent, link⟩ := neighbour_eq_ok nextMade
      obtain ⟨previousPresent, -⟩ := neighbour_eq_ok previousMade
      cases rest with
      | nil =>
          cases onward
          refine ⟨link, congrArg (· :: []) used, by simpa using inUse, ?_⟩
          simpa using ⟨nextPresent, previousPresent⟩
      | cons following rest =>
          obtain ⟨linked, spelled, othersTaken, present⟩ := ih onward (by simp) restTaken
          refine ⟨?_, ?_, ?_, ?_⟩
          · cases others with
            | nil => exact linked.elim
            | cons => exact ⟨link, linked⟩
          · rw [List.map_cons, spelled]
            exact congrArg (· :: _) used
          · exact List.forall_mem_cons.mpr ⟨inUse, othersTaken⟩
          · exact List.forall_mem_cons.mpr ⟨⟨nextPresent, previousPresent⟩, present⟩

end Collection

/-!
## Planning, writing and reading
-/

namespace Site

variable {site : Site} {stores before : Stores}

theorem yields_keyNames : site.Yields site.collection.keyNames stores (.ok stores.keys) :=
  (yields_openAs .index).bind ((yields_readAll .index).bind (.pure _))

theorem yields_planProperties (properties : List Property) :
    (∃ error, site.Yields (site.collection.planProperties properties) stores (.error error)) ∨
      ∃ plan, site.Yields (site.collection.planProperties properties) stores (.ok plan) ∧
        List.Forall₂ (PropertyPlan.Plans (stores.keys ++ plan.newKeys)) plan.entries properties ∧
        PropertyPlan.addAll stores.keys [] ⟨[], []⟩ properties = .ok plan ∧
        (1 < plan.recordCount →
          (stores .property).length + plan.recordCount ≤ Collection.shortIdLimit) := by
  cases planned : PropertyPlan.addAll stores.keys [] ⟨[], []⟩ properties with
  | error error =>
      exact .inl ⟨error, yields_keyNames.bind ((Yields.of planned).bind_error _)⟩
  | ok plan =>
      obtain ⟨-, more, entries, plans⟩ := PropertyPlan.addAll_eq_ok planned
      rw [List.nil_append] at entries
      subst entries
      by_cases many : 1 < plan.recordCount
      · by_cases crowded : Collection.shortIdLimit ≤
            (stores .property).length + plan.recordCount - 1
        · refine .inl ⟨.payloadTooLarge "chained property record id" (Collection.shortIdLimit - 1)
            ((stores .property).length + plan.recordCount - 1),
            yields_keyNames.bind ((Yields.of planned).bind ?_)⟩
          simp only [many, ↓reduceIte]
          refine (yields_openAs .property).bind ((yields_count .property).bind ?_)
          simp only [crowded, ↓reduceIte]
          exact (Yields.throw _).bind_error _
        · refine .inr ⟨plan, yields_keyNames.bind ((Yields.of planned).bind ?_), plans, rfl, by omega⟩
          simp only [many, ↓reduceIte]
          refine (yields_openAs .property).bind ((yields_count .property).bind ?_)
          simp only [crowded, ↓reduceIte]
          exact .pure plan
      · refine .inr ⟨plan, yields_keyNames.bind ((Yields.of planned).bind ?_), plans, rfl,
          fun more => absurd more many⟩
        simp only [many, ↓reduceIte]
        exact .pure plan

/-- Whether a block is that of a planned entry. -/
structure Packs (stores : Stores) (entry : Nat × PropertyValue) (block : PropertyBlock) :
    Prop where
  key : block.key.toNat = entry.1
  value : HoldsValue stores block entry.2

theorem enriching_writeValue (entry : Nat × PropertyValue) :
    site.Enriching (site.collection.writeValue entry.1 entry.2) before fun block stores =>
      Packs stores entry block := by
  obtain ⟨key, value⟩ := entry
  cases value with
  | bool value =>
      refine Enriching.of fun block made => ?_
      obtain ⟨number, held⟩ := PropertyBlock.ofBool_eq_ok made
      exact ⟨number, held⟩
  | int value =>
      refine Enriching.of fun block made => ?_
      obtain ⟨number, held⟩ := PropertyBlock.ofInt_eq_ok made
      exact ⟨number, held⟩
  | text value =>
      refine (enriching_writeText value).bind fun head stores _ begins => ?_
      refine Enriching.of fun block made => ?_
      obtain ⟨number, tag, points⟩ := PropertyBlock.ofText_eq_ok made
      exact ⟨number, tag, points ▸ begins⟩

theorem enriching_writeValues (entries : List (Nat × PropertyValue)) :
    site.Enriching (entries.mapM fun entry => site.collection.writeValue entry.1 entry.2) before
      fun blocks stores =>
        List.Forall₂ (fun entry block => Packs stores entry block) entries blocks := by
  refine Enriching.mapM (fun entry block stores => Packs stores entry block) ?_ ?_
  · exact fun _ _ _ _ enriched packs => ⟨packs.key, packs.value.grown enriched.grows⟩
  · exact fun entry _ stores _ => enriching_writeValue entry

private theorem spells_of_packs {entries : List (Nat × PropertyValue)} {blocks : List PropertyBlock}
    {properties : List Property} {keys : List String}
    (packs : List.Forall₂ (fun entry block => Packs stores entry block) entries blocks)
    (plans : List.Forall₂ (PropertyPlan.Plans keys) entries properties)
    (known : keys <+: stores.keys) : List.Forall₂ (Spells stores) blocks properties := by
  induction packs generalizing properties with
  | nil =>
      cases plans
      exact .nil
  | cons here _ ih =>
      cases plans with
      | cons plan others =>
          refine .cons ⟨?_, plan.value ▸ here.value⟩ (ih others)
          rw [here.key]
          exact getElem?_of_grown known plan.key

private theorem isEmpty_of_spells {blocks : List PropertyBlock} {properties : List Property}
    (spelled : List.Forall₂ (Spells stores) blocks properties) :
    ∀ block ∈ blocks, block.isEmpty = false := by
  induction spelled with
  | nil => exact nofun
  | cons here _ ih => exact List.forall_mem_cons.mpr ⟨here.value.isEmpty, ih⟩

/-- Blocks that are added as a chain of records begin where the number of the first one says. -/
private theorem enriching_appendBlocks {blocks : List PropertyBlock} {properties : List Property}
    {count : Nat} (spelled : List.Forall₂ (Spells before) blocks properties)
    (nonempty : 0 < count) (enough : blocks.length ≤ blocksPerRecord * count) :
    site.Enriching (do
        let file ← site.collection.properties
        let first ← file.count
        let records ← Action.of
          (Collection.propertyRecords first 0 (slices blocksPerRecord count blocks))
        return some (← file.appendAll records)) before fun head stores =>
      head ≠ some absentId ∧ PropertiesAt stores head properties := by
  have joined := flatten_slices blocksPerRecord count blocks enough
  have filled : slices blocksPerRecord count blocks ≠ [] := by
    intro none
    have length := length_slices blocksPerRecord count blocks
    rw [none, List.length_nil] at length
    omega
  have taken : ∀ chunk ∈ slices blocksPerRecord count blocks, ∀ block ∈ chunk,
      block.isEmpty = false := by
    intro chunk among block member
    apply isEmpty_of_spells spelled
    rw [← joined]
    exact List.mem_flatten_of_mem among member
  refine (yields_openAs .property).bind_ensures ((yields_count .property).bind_ensures ?_)
  refine Enriching.of_bind fun records made => ?_
  obtain ⟨linked, used, inUse, present⟩ := Collection.propertyRecords_spec made filled taken
  have appended : site.Enriching ((site.file .property).appendAll records) before fun head stores =>
      some head ≠ some absentId ∧ PropertiesAt stores (some head) properties := ?_
  · exact appended.bind fun head stores _ begins => (Yields.pure _).enriching begins
  refine enriching_appendAll (by decide) ?_ fun room => ⟨ofNat_ne_absentId (by omega), ?_⟩
  · intro _ record member
    exact PropertyRecord.faithful (present record member).1 (present record member).2
  · obtain ⟨visited, chain, held⟩ := linked.exists_chain room
    have grown : Enriches before (before.set .property (before .property ++ records)) :=
      .append before .property (by decide) records
    refine ⟨visited, by rw [Stores.set_self]; exact chain, ?_, ?_⟩
    · intro entry member
      exact inUse entry.2 (held ▸ List.mem_map_of_mem member)
    · have data : visited.map (fun entry => entry.2.used) = records.map PropertyRecord.used := by
        rw [← held, List.map_map]
        rfl
      rw [List.flatMap_def, data, used, joined]
      exact spelled.imp fun _ _ here => here.grown grown.grows

private theorem enriching_writeEntries {plan : PropertyPlan} {properties : List Property}
    (filled : plan.entries ≠ [])
    (plans : List.Forall₂ (PropertyPlan.Plans before.keys) plan.entries properties) :
    site.Enriching (do
        let blocks ← plan.entries.mapM fun entry => site.collection.writeValue entry.1 entry.2
        let file ← site.collection.properties
        let first ← file.count
        let records ← Action.of
          (Collection.propertyRecords first 0 (slices blocksPerRecord plan.recordCount blocks))
        return some (← file.appendAll records)) before fun head stores =>
      head ≠ some absentId ∧ PropertiesAt stores head properties := by
  refine (enriching_writeValues plan.entries).bind fun blocks stores enriched packs => ?_
  have spelled := spells_of_packs packs plans enriched.grows.keys
  have width := packs.length_eq
  have entries := List.length_pos_iff.mpr filled
  refine enriching_appendBlocks spelled ?_ ?_ <;>
    rw [PropertyPlan.recordCount, sliceCount, blocksPerRecord] <;> omega

/-- Planned properties begin where the number of their first record says. -/
theorem enriching_writeProperties {plan : PropertyPlan} {properties : List Property}
    (plans : List.Forall₂ (PropertyPlan.Plans (before.keys ++ plan.newKeys)) plan.entries
      properties) :
    site.Enriching (site.collection.writeProperties plan) before fun head stores =>
      head ≠ some absentId ∧ PropertiesAt stores head properties := by
  rw [Collection.writeProperties]
  by_cases empty : plan.entries = []
  · have nothing : plan.isEmpty = true := List.isEmpty_iff.mpr empty
    rw [empty] at plans
    cases plans
    simp only [nothing, ↓reduceIte]
    exact (Yields.pure none).enriching ⟨nofun, [], .nil, nofun, .nil⟩
  · have filled : plan.isEmpty = false := by simpa [PropertyPlan.isEmpty] using empty
    simp only [filled, Bool.false_eq_true, ↓reduceIte]
    by_cases known : plan.newKeys = []
    · rw [known, List.append_nil] at plans
      simp only [known, List.isEmpty_nil, Bool.not_true, Bool.false_eq_true, ↓reduceIte]
      exact enriching_writeEntries empty plans
    · have more : (!plan.newKeys.isEmpty) = true := by simpa using known
      simp only [more, ↓reduceIte]
      refine Enriching.of_bind fun records made => ?_
      refine (yields_openAs .index).bind_ensures ?_
      have names : records.map KeyRecord.name = plan.newKeys := by
        apply map_eq_of_mapM_eq_ok _ made
        intro name record given
        rw [(KeyRecord.ofName_eq_ok_iff.mp given).2.2]
      have appended : site.Enriching ((site.file .index).appendAll records) before fun _ stores =>
          stores.keys = before.keys ++ plan.newKeys := by
        refine enriching_appendAll (by decide) ?_ fun _ => ?_
        · intro _ record member
          obtain ⟨name, given⟩ := exists_of_mem_mapM made member
          exact KeyRecord.faithful_of_ofName given
        · rw [Stores.keys, Stores.set_self, List.map_append, names, Stores.keys]
      refine appended.bind fun _ stores _ keys => ?_
      exact enriching_writeEntries empty (keys ▸ plans)

private theorem yields_readBlock {block : PropertyBlock} {property : Property}
    (spelled : Spells stores block property) (id : RecordId) :
    site.Yields (site.collection.readBlock stores.keys id block) stores (.ok property) := by
  obtain ⟨key, value⟩ := property
  rw [Collection.readBlock, spelled.key]
  have held := spelled.value
  cases value with
  | bool value =>
      obtain ⟨tag, same⟩ := held
      simp only [PropertyBlock.type, tag, PropertyType.ofTag, same]
      exact .pure _
  | int value =>
      obtain ⟨tag, same⟩ := held
      simp only [PropertyBlock.type, tag, PropertyType.ofTag, same, Int64.ofInt_toInt]
      exact .pure _
  | text value =>
      obtain ⟨tag, begins⟩ := held
      simp only [PropertyBlock.type, tag, PropertyType.ofTag]
      exact (yields_readText begins).bind (.pure _)

/-- What a sequence of parts is related to falls into parts. -/
private theorem exists_parts {α β γ : Type} {R : β → γ → Prop} {f : α → List β} {items : List α}
    {values : List γ} (related : List.Forall₂ R (items.flatMap f) values) :
    ∃ parts, List.Forall₂ (fun item part => List.Forall₂ R (f item) part) items parts ∧
      parts.flatten = values := by
  induction items generalizing values with
  | nil =>
      cases related
      exact ⟨[], .nil, rfl⟩
  | cons item rest ih =>
      rw [List.flatMap_cons] at related
      have front := List.forall₂_take (f item).length related
      have back := List.forall₂_drop (f item).length related
      rw [List.take_left] at front
      rw [List.drop_left] at back
      obtain ⟨parts, onward, joined⟩ := ih back
      refine ⟨_, .cons front onward, ?_⟩
      rw [List.flatten_cons, joined, List.take_append_drop]

theorem yields_readProperties {head : Option RecordId} {properties : List Property}
    (held : PropertiesAt stores head properties) :
    site.Yields (site.collection.readProperties head) stores (.ok properties) := by
  obtain ⟨visited, chain, taken, spelled⟩ := held
  cases head with
  | none =>
      cases chain
      cases spelled
      exact .pure []
  | some first =>
      obtain ⟨parts, spelledParts, joined⟩ := exists_parts spelled
      refine (yields_openAs .property).bind ((yields_count .property).bind ?_)
      refine yields_keyNames.bind ?_
      have visits : List.Forall₂ (fun entry part => site.Yields (do
          let record ← (site.file .property).readInUse entry.1
          let properties ← record.used.mapM (site.collection.readBlock stores.keys entry.1)
          pure (properties, record.next.map UInt16.toUInt32)) stores
          (.ok (part, entry.2.next.map UInt16.toUInt32))) visited parts := by
        have here : ∀ entry ∈ visited,
            (stores .property)[entry.1.toNat]? = some entry.2 ∧ entry.2.inUse = true :=
          fun entry member => ⟨chain.found entry member, taken entry member⟩
        refine ((List.forall₂_and_left visited parts).mpr ⟨here, spelledParts⟩).imp ?_
        intro entry part ended
        obtain ⟨⟨found, inUse⟩, spelledPart⟩ := ended
        refine (yields_readInUse found inUse).bind (Yields.bind ?_ (.pure _))
        exact Yields.mapM (spelledPart.imp fun _ _ held => yields_readBlock held entry.1)
      refine (chain.yields_walk visits _ chain.length_le).bind ?_
      rw [joined]
      exact .pure properties

end Site

end GraphStore
