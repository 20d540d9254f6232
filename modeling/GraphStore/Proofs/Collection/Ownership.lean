import GraphStore.Proofs.Collection.Writing

/-!
# Records and their owners

Labels, properties and texts stand in runs of neighbouring records, each with one owner that points
at its first record. Main statements: the records of written texts and properties are such runs, with
no more records than they need, and what is added stays owned together with all that was there.
-/

set_option autoImplicit false

namespace GraphStore

variable {ρ : Type}

/-!
## Runs
-/

/-- Whether records are runs, one behind the other, that begin at these numbers. -/
inductive Tiled (IsRun : (first : Nat) → List ρ → Prop) :
    (starts : List Nat) → (records : List ρ) → Prop
  | nil : Tiled IsRun [] []
  | append {starts : List Nat} {records run : List ρ} (front : Tiled IsRun starts records)
      (isRun : IsRun records.length run) :
      Tiled IsRun (starts ++ [records.length]) (records ++ run)

/-- Whether every record stands in the run of exactly one owner, where these are the numbers at
which the owners point. -/
def Owned (IsRun : (first : Nat) → List ρ → Prop) (heads : List Nat) (records : List ρ) : Prop :=
  ∃ starts, Tiled IsRun starts records ∧ starts.Perm heads

section

variable {IsRun : Nat → List ρ → Prop} {starts heads others : List Nat} {records run : List ρ}

theorem Tiled.exists_run (tiled : Tiled IsRun starts records) {start : Nat}
    (member : start ∈ starts) :
    ∃ front run back, records = front ++ run ++ back ∧ front.length = start ∧ IsRun start run := by
  induction tiled with
  | nil => cases member
  | @append starts records run _ isRun ih =>
      rcases List.mem_append.mp member with former | new
      · obtain ⟨front, middle, back, rfl, width, isMiddle⟩ := ih former
        exact ⟨front, middle, back ++ run, by simp, width, isMiddle⟩
      · obtain rfl := List.mem_singleton.mp new
        exact ⟨records, run, [], by simp, rfl, isRun⟩

theorem Owned.nil : Owned IsRun [] [] := ⟨[], .nil, .nil⟩

theorem Owned.append (owned : Owned IsRun heads records) (isRun : IsRun records.length run) :
    Owned IsRun (records.length :: heads) (records ++ run) := by
  obtain ⟨starts, tiled, same⟩ := owned
  exact ⟨_, tiled.append isRun, (List.perm_append_singleton _ _).trans (same.cons _)⟩

theorem Owned.perm (owned : Owned IsRun heads records) (same : heads.Perm others) :
    Owned IsRun others records := by
  obtain ⟨starts, tiled, former⟩ := owned
  exact ⟨starts, tiled, former.trans same⟩

theorem Owned.exists_run (owned : Owned IsRun heads records) {record : ρ}
    (member : record ∈ records) :
    ∃ first run, record ∈ run ∧ IsRun first run ∧ first + run.length ≤ records.length := by
  obtain ⟨starts, tiled, -⟩ := owned
  induction tiled with
  | nil => cases member
  | @append starts records run _ isRun ih =>
      rw [List.length_append]
      rcases List.mem_append.mp member with former | new
      · obtain ⟨first, middle, inMiddle, isMiddle, bound⟩ := ih former
        exact ⟨first, middle, inMiddle, isMiddle, bound.trans (Nat.le_add_right _ _)⟩
      · exact ⟨records.length, run, new, isRun, Nat.le_refl _⟩

/-- What an owner points at is there. -/
theorem Owned.lt_length (owned : Owned IsRun heads records)
    (filled : ∀ first run, IsRun first run → run ≠ []) :
    ∀ head ∈ heads, head < records.length := by
  intro head member
  obtain ⟨starts, tiled, same⟩ := owned
  obtain ⟨front, run, back, rfl, rfl, isRun⟩ := tiled.exists_run (same.symm.subset member)
  have width := List.length_pos_iff.mpr (filled _ run isRun)
  simp only [List.length_append]
  omega

end

/-- Whether each record of a run points at the one behind it, and the last one at none. -/
def PointsOn (next : ρ → Option Nat) (first : Nat) (run : List ρ) : Prop :=
  ∀ (place : Nat) record, run[place]? = some record →
    next record = if place + 1 < run.length then some (first + place + 1) else none

/-- Whether each record of a run points at the one before it, and the first one at none. -/
def PointsBack (previous : ρ → Option Nat) (first : Nat) (run : List ρ) : Prop :=
  ∀ (place : Nat) record, run[place]? = some record →
    previous record = if place = 0 then none else some (first + place - 1)

theorem PointsOn.lt {next : ρ → Option Nat} {first : Nat} {run : List ρ}
    (points : PointsOn next first run) {record : ρ} (member : record ∈ run) {number : Nat}
    (link : next record = some number) : number < first + run.length := by
  obtain ⟨place, found⟩ := List.mem_iff_getElem?.mp member
  rw [points place record found] at link
  split at link
  · cases link
    omega
  · cases link

theorem PointsBack.lt {previous : ρ → Option Nat} {first : Nat} {run : List ρ}
    (points : PointsBack previous first run) {record : ρ} (member : record ∈ run) {number : Nat}
    (link : previous record = some number) : number < first + run.length := by
  obtain ⟨place, found⟩ := List.mem_iff_getElem?.mp member
  obtain ⟨inside, -⟩ := List.getElem?_eq_some_iff.mp found
  rw [points place record found] at link
  split at link
  · cases link
  · cases link
    omega

/-- A record with labels stands alone. -/
structure IsLabelRun (first : Nat) (run : List LabelRecord) : Prop where
  alone : run.length = 1
  inUse : ∀ record ∈ run, record.inUse = true

/-- The records of one text, no more of them than its bytes need. -/
structure IsTextRun (first : Nat) (run : List TextRecord) : Prop where
  inUse : ∀ record ∈ run, record.inUse = true
  next : PointsOn (fun record => record.next.map UInt32.toNat) first run
  fitting : run.length =
    max 1 (sliceCount textChunkSize (run.flatMap TextRecord.data).length)

/-- The records of one list of properties, linked in both directions and no more of them than the
properties need. -/
structure IsPropertyRun (first : Nat) (run : List PropertyRecord) : Prop where
  filled : run ≠ []
  inUse : ∀ record ∈ run, record.inUse = true
  next : PointsOn (fun record => record.next.map UInt16.toNat) first run
  previous : PointsBack (fun record => record.previous.map UInt16.toNat) first run
  fitting : run.length = sliceCount blocksPerRecord (run.flatMap PropertyRecord.used).length

theorem IsLabelRun.filled {first : Nat} {run : List LabelRecord} (isRun : IsLabelRun first run) :
    run ≠ [] := List.length_pos_iff.mp (by rw [isRun.alone]; decide)

theorem IsTextRun.filled {first : Nat} {run : List TextRecord} (isRun : IsTextRun first run) :
    run ≠ [] := List.length_pos_iff.mp (by rw [isRun.fitting]; omega)

/-!
## Records that were made
-/

/-- Linked neighbours have their numbers in the links, as long as all of them have one. -/
theorem Linked.pointsOn {next : ρ → Option RecordId} {first : Nat} {run : List ρ}
    (linked : Linked next first run) (room : first + run.length < RecordFile.idLimit) :
    PointsOn (fun record => (next record).map UInt32.toNat) first run := by
  induction run generalizing first with
  | nil => exact linked.elim
  | cons head rest ih =>
      intro place record found
      cases rest with
      | nil =>
          cases place with
          | zero =>
              obtain rfl := Option.some.inj found
              simp [show next head = none from linked]
          | succ place => simp at found
      | cons following others =>
          obtain ⟨link, onward⟩ := linked
          rw [List.length_cons] at room
          cases place with
          | zero =>
              obtain rfl := Option.some.inj found
              have number : (UInt32.ofNat (first + 1)).toNat = first + 1 :=
                toNat_ofNat_of_lt (by omega)
              simp only [link, Option.map_some, number, List.length_cons, Nat.add_zero]
              rw [if_pos (by omega)]
          | succ place =>
              have behind := ih onward (by omega) place record found
              simp only [List.length_cons] at behind ⊢
              rw [behind]
              simp only [Nat.add_lt_add_iff_right, Nat.add_assoc, Nat.add_comm 1]

namespace Collection

theorem isTextRun_of_textRecords {first : Nat} {text : String} {records : List TextRecord}
    (made : textRecords first (textChunks text) = .ok records)
    (room : first + records.length < RecordFile.idLimit) : IsTextRun first records := by
  obtain ⟨linked, spelled, inUse, -⟩ := textRecords_spec made (textChunks_ne_nil text)
  have data : records.flatMap TextRecord.data = Text.Utf8.encode text := by
    rw [List.flatMap_def, spelled, flatten_textChunks]
  refine ⟨inUse, linked.pointsOn room, ?_⟩
  rw [data, ← List.length_map (f := TextRecord.data), spelled, textChunks, length_slices]

theorem previous_of_propertyRecords {first before : Nat} {chunks : List (List PropertyBlock)}
    {records : List PropertyRecord} (made : propertyRecords first before chunks = .ok records)
    (room : first + records.length < RecordFile.idLimit) {place : Nat} {record : PropertyRecord}
    (found : records[place]? = some record) :
    record.previous.map UInt16.toNat =
      if before + place = 0 then none else some (first + place - 1) := by
  induction chunks generalizing first before records place with
  | nil =>
      cases made
      simp at found
  | cons chunk rest ih =>
      rw [propertyRecords_cons] at made
      obtain ⟨head, _, made⟩ := exists_of_bind_eq_ok made
      obtain ⟨next, _, made⟩ := exists_of_bind_eq_ok made
      obtain ⟨previous, previousMade, made⟩ := exists_of_bind_eq_ok made
      obtain ⟨others, onward, made⟩ := exists_of_bind_eq_ok made
      cases made
      rw [List.length_cons] at room
      cases place with
      | zero =>
          obtain rfl := Option.some.inj found
          have link := congrArg (Option.map UInt32.toNat) (neighbour_eq_ok previousMade).2
          rw [Option.map_map] at link
          have widened : UInt32.toNat ∘ UInt16.toUInt32 = UInt16.toNat := rfl
          rw [widened] at link
          simp only [link, Nat.add_zero]
          split
          · rfl
          · rw [Option.map_some, toNat_ofNat_of_lt (by omega)]
      | succ place =>
          rw [ih onward (by omega) found, if_neg (by omega), if_neg (by omega)]
          congr 1
          omega

theorem isPropertyRun_of_propertyRecords {first count : Nat} {blocks : List PropertyBlock}
    {records : List PropertyRecord} (taken : ∀ block ∈ blocks, block.isEmpty = false)
    (needed : count = sliceCount blocksPerRecord blocks.length) (filled : blocks ≠ [])
    (made : propertyRecords first 0 (slices blocksPerRecord count blocks) = .ok records)
    (room : first + records.length < RecordFile.idLimit) :
    IsPropertyRun first records ∧ records.flatMap PropertyRecord.used = blocks ∧
      ∀ record ∈ records, StoredRecord.Faithful record := by
  have several := List.length_pos_iff.mpr filled
  have joined : (slices blocksPerRecord count blocks).flatten = blocks := by
    apply flatten_slices
    rw [needed, sliceCount, blocksPerRecord]
    omega
  have parts : 0 < (slices blocksPerRecord count blocks).length := by
    rw [length_slices, needed, sliceCount, blocksPerRecord]
    omega
  obtain ⟨linked, used, inUse, present⟩ := propertyRecords_spec made (List.length_pos_iff.mp parts)
    fun chunk among block member => taken block (joined ▸ List.mem_flatten_of_mem among member)
  have held : records.flatMap PropertyRecord.used = blocks := by
    rw [List.flatMap_def, used, joined]
  have width : records.length = count := by
    rw [← List.length_map (f := PropertyRecord.used), used, length_slices]
  refine ⟨⟨?_, inUse, ?_, ?_, by rw [width, held, needed]⟩, held, fun record member =>
    PropertyRecord.faithful (present record member).1 (present record member).2⟩
  · rw [← List.length_pos_iff, width, ← length_slices blocksPerRecord count blocks]
    exact parts
  · have links := linked.pointsOn room
    intro place record found
    have link := links place record found
    simp only [Option.map_map] at link
    exact link
  · intro place record found
    simpa using previous_of_propertyRecords made room found

end Collection

/-!
## Shelves
-/

/-- The number of the first record of the text in a block. -/
def PropertyBlock.textHead? (block : PropertyBlock) : Option Nat :=
  if block.type = .string then some block.value.toNat else none

/-- The blocks of all properties of a collection. -/
def Stores.blocks (stores : Stores) : List PropertyBlock :=
  (stores .property).flatMap PropertyRecord.used

/-- Whether keys are few and distinct, and neither empty nor too long. -/
structure KeysFit (records : List KeyRecord) : Prop where
  few : records.length ≤ maxKeys
  distinct : (records.map KeyRecord.name).Nodup
  each : ∀ record ∈ records, record.inUse = true ∧ 1 ≤ Text.Utf8.size record.name ∧
    Text.Utf8.size record.name ≤ maxKeySize

/-- Whether a block has one of the first `keys` keys, and a value of a type that is stored. -/
def BlockFits (keys : Nat) (block : PropertyBlock) : Prop :=
  block.key.toNat < keys ∧ (block.type = .bool ∨ block.type = .int ∨ block.type = .string)

/-- Whether labels, properties and texts are owned, the texts by the blocks of properties and by
blocks that stand in no record yet. -/
structure Shelved (stores : Stores) (labels properties : List Nat) (loose : List PropertyBlock) :
    Prop where
  labels : Owned IsLabelRun labels (stores .label)
  properties : Owned IsPropertyRun properties (stores .property)
  texts : Owned IsTextRun ((stores.blocks ++ loose).filterMap PropertyBlock.textHead?)
    (stores .string)
  blocks : ∀ block ∈ stores.blocks ++ loose, BlockFits (stores .index).length block
  keys : KeysFit (stores .index)
  arrays : stores .array = []

namespace Shelved

variable {stores : Stores} {labels properties : List Nat} {loose : List PropertyBlock}

theorem empty : Shelved .empty [] [] [] where
  labels := .nil
  properties := .nil
  texts := .nil
  blocks := nofun
  keys := ⟨Nat.zero_le _, .nil, nofun⟩
  arrays := rfl

theorem congr {others : Stores} (shelved : Shelved stores labels properties loose)
    (same : ∀ kind : StoreKind, kind.IsAside → others kind = stores kind) :
    Shelved others labels properties loose := by
  have property := same .property (by decide)
  have index := same .index (by decide)
  have blocks : others.blocks = stores.blocks := by rw [Stores.blocks, property, Stores.blocks]
  constructor
  · rw [same .label (by decide)]
    exact shelved.labels
  · rw [property]
    exact shelved.properties
  · rw [blocks, same .string (by decide)]
    exact shelved.texts
  · rw [blocks, index]
    exact shelved.blocks
  · rw [index]
    exact shelved.keys
  · rw [same .array (by decide)]
    exact shelved.arrays

theorem perm (shelved : Shelved stores labels properties loose) {others more : List Nat}
    (sameLabels : labels.Perm others) (sameProperties : properties.Perm more) :
    Shelved stores others more loose where
  __ := shelved
  labels := shelved.labels.perm sameLabels
  properties := shelved.properties.perm sameProperties

theorem addLabel (shelved : Shelved stores labels properties loose) {record : LabelRecord}
    (inUse : record.inUse = true) :
    Shelved (stores.set .label (stores .label ++ [record]))
      ((stores .label).length :: labels) properties loose where
  labels := by
    rw [Stores.set_self]
    exact shelved.labels.append ⟨rfl, by simpa using inUse⟩
  properties := shelved.properties
  texts := shelved.texts
  blocks := shelved.blocks
  keys := shelved.keys
  arrays := shelved.arrays

theorem addKeys (shelved : Shelved stores labels properties loose) {records : List KeyRecord}
    (keys : KeysFit (stores .index ++ records)) :
    Shelved (stores.set .index (stores .index ++ records)) labels properties loose where
  labels := shelved.labels
  properties := shelved.properties
  texts := shelved.texts
  blocks block member := by
    obtain ⟨known, type⟩ := shelved.blocks block member
    refine ⟨?_, type⟩
    rw [Stores.set_self, List.length_append]
    omega
  keys := by rwa [Stores.set_self]
  arrays := shelved.arrays

theorem addBlock (shelved : Shelved stores labels properties loose) {block : PropertyBlock}
    (fits : BlockFits (stores .index).length block) (noText : block.type ≠ .string) :
    Shelved stores labels properties (loose ++ [block]) where
  __ := shelved
  texts := by
    have none : block.textHead? = none := if_neg noText
    rw [← List.append_assoc, List.filterMap_append, List.filterMap_cons_none none,
      List.filterMap_nil, List.append_nil]
    exact shelved.texts
  blocks := by
    rw [← List.append_assoc]
    exact List.forall_mem_append.mpr ⟨shelved.blocks, by simpa using fits⟩

theorem addText (shelved : Shelved stores labels properties loose) {records : List TextRecord}
    {block : PropertyBlock} (isRun : IsTextRun (stores .string).length records)
    (known : block.key.toNat < (stores .index).length) (text : block.type = .string)
    (head : block.value.toNat = (stores .string).length) :
    Shelved (stores.set .string (stores .string ++ records)) labels properties
      (loose ++ [block]) where
  labels := shelved.labels
  properties := shelved.properties
  texts := by
    have start : block.textHead? = some (stores .string).length := by
      rw [PropertyBlock.textHead?, if_pos text, head]
    have heads : (stores.blocks ++ (loose ++ [block])).filterMap PropertyBlock.textHead? =
        (stores.blocks ++ loose).filterMap PropertyBlock.textHead? ++ [(stores .string).length] := by
      rw [← List.append_assoc, List.filterMap_append, List.filterMap_cons_some start,
        List.filterMap_nil]
    rw [Stores.set_self]
    refine (shelved.texts.append isRun).perm ?_
    exact (List.perm_append_singleton _ _).symm.trans (.of_eq heads.symm)
  blocks := by
    rw [← List.append_assoc]
    exact List.forall_mem_append.mpr ⟨shelved.blocks, by simpa using ⟨known, .inr (.inr text)⟩⟩
  keys := shelved.keys
  arrays := shelved.arrays

theorem addProperties {run : List PropertyRecord}
    (shelved : Shelved stores labels properties (run.flatMap PropertyRecord.used))
    (isRun : IsPropertyRun (stores .property).length run) :
    Shelved (stores.set .property (stores .property ++ run)) labels
      ((stores .property).length :: properties) [] := by
  have blocks : (stores.set .property (stores .property ++ run)).blocks ++ [] =
      stores.blocks ++ run.flatMap PropertyRecord.used := by
    rw [List.append_nil, Stores.blocks, Stores.set_self, List.flatMap_append, Stores.blocks]
  constructor
  · exact shelved.labels
  · rw [Stores.set_self]
    exact shelved.properties.append isRun
  · rw [blocks]
    exact shelved.texts
  · rw [blocks]
    exact shelved.blocks
  · exact shelved.keys
  · exact shelved.arrays

end Shelved

end GraphStore
