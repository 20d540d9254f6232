import GraphStore.Collection.Properties
import GraphStore.Proofs.Collection.Opening
import GraphStore.Proofs.Collection.Properties
import Mathlib

/-!
# Writing what was planned

A plan is checked against the keys and the numbers of records that are there. Main statement: where
all files can be opened, whatever they hold, the properties of a checked plan are written without a
failure as long as there are numbers for their texts and records.
-/

set_option autoImplicit false

namespace GraphStore

open StoredRecord

/-!
## Checked plans
-/

namespace PropertyPlan

variable {known : List String} {plan planned : PropertyPlan}

/-- What writing a plan relies on. -/
structure Checked (known : List String) (plan : PropertyPlan) : Prop where
  names : ∀ name ∈ plan.newKeys, ∃ record, KeyRecord.ofName name = .ok record
  few : plan.newKeys ≠ [] → known.length + plan.newKeys.length ≤ maxKeys
  keys : ∀ entry ∈ plan.entries, entry.1 < maxKeys
  ints : ∀ entry ∈ plan.entries, ∀ value, entry.2 = .int value →
    PropertyBlock.fits value.toInt = true

theorem checked_empty (known : List String) : Checked known ⟨[], []⟩ :=
  ⟨nofun, fun more => absurd rfl more, nofun, nofun⟩

private theorem fits_of_ofInt {key : Nat} {value : Int} {block : PropertyBlock}
    (made : PropertyBlock.ofInt key value = .ok block) : PropertyBlock.fits value = true := by
  unfold PropertyBlock.ofInt at made
  split at made
  next fit => exact fit
  next => cases made

theorem Checked.entry {number : Nat} {value : PropertyValue} (checked : plan.Checked known)
    (small : number < maxKeys)
    (fit : ∀ int, value = .int int → PropertyBlock.fits int.toInt = true) :
    Checked known { plan with entries := plan.entries ++ [(number, value)] } where
  names := checked.names
  few := checked.few
  keys := by
    intro entry member
    rcases List.mem_append.mp member with former | new
    · exact checked.keys entry former
    · exact List.mem_singleton.mp new ▸ small
  ints := by
    intro entry member
    rcases List.mem_append.mp member with former | new
    · exact checked.ints entry former
    · exact List.mem_singleton.mp new ▸ fit

theorem Checked.keyNumber {key : String} {number : Nat} (checked : plan.Checked known)
    (found : plan.keyNumber known key = .ok (number, planned)) (small : number < maxKeys) :
    planned.Checked known := by
  unfold PropertyPlan.keyNumber at found
  split at found
  next =>
    cases found
    exact checked
  next =>
    obtain ⟨record, made, found⟩ := exists_of_bind_eq_ok found
    cases found
    refine ⟨?_, fun _ => ?_, checked.keys, checked.ints⟩
    · intro name member
      rcases List.mem_append.mp member with former | new
      · exact checked.names name former
      · exact List.mem_singleton.mp new ▸ ⟨record, made⟩
    · rw [List.length_append, List.length_singleton]
      omega

theorem Checked.add {earlier : List String} {property : Property} (checked : plan.Checked known)
    (added : plan.add known earlier property = .ok planned) : planned.Checked known := by
  rw [PropertyPlan.add] at added
  split at added
  next => cases added
  next =>
    obtain ⟨⟨number, extended⟩, found, added⟩ := exists_of_bind_eq_ok added
    simp only at added
    split at added
    next => cases added
    next small =>
      have extendedChecked := checked.keyNumber found (Nat.lt_of_not_le small)
      split at added
      next int value =>
        obtain ⟨_, made, added⟩ := exists_of_bind_eq_ok added
        cases added
        refine extendedChecked.entry (Nat.lt_of_not_le small) fun other same => ?_
        rw [value] at same
        cases same
        exact fits_of_ofInt made
      next noInt =>
        cases added
        exact extendedChecked.entry (Nat.lt_of_not_le small) fun int same => absurd same (noInt int)

theorem Checked.addAll {earlier : List String} {properties : List Property}
    (checked : plan.Checked known)
    (added : plan.addAll known earlier properties = .ok planned) : planned.Checked known := by
  induction properties generalizing plan earlier with
  | nil =>
      cases added
      exact checked
  | cons property rest ih =>
      obtain ⟨middle, first, added⟩ := exists_of_bind_eq_ok added
      exact ih (checked.add first) added

theorem map_snd_of_plans {keys : List String} {entries : List (Nat × PropertyValue)}
    {properties : List Property} (plans : List.Forall₂ (Plans keys) entries properties) :
    entries.map Prod.snd = properties.map Property.value := by
  induction plans with
  | nil => rfl
  | cons here _ ih => rw [List.map_cons, List.map_cons, here.value, ih]

end PropertyPlan

/-!
## Computations that succeed
-/

theorem exists_mapM_eq_ok {α β ε : Type} {items : List α} {f : α → Except ε β}
    (each : ∀ item ∈ items, ∃ value, f item = .ok value) :
    ∃ values, items.mapM f = .ok values := by
  induction items with
  | nil => exact ⟨[], rfl⟩
  | cons item rest ih =>
      obtain ⟨⟨value, here⟩, others⟩ := List.forall_mem_cons.mp each
      obtain ⟨values, onward⟩ := ih others
      refine ⟨value :: values, ?_⟩
      rw [List.mapM_cons, here, onward]
      rfl

theorem length_le_of_mem_slices {α : Type} {length count : Nat} {items part : List α}
    (member : part ∈ slices length count items) : part.length ≤ length := by
  induction count generalizing items with
  | zero => cases member
  | succ count ih =>
      rw [slices] at member
      rcases List.mem_cons.mp member with rfl | later
      · exact List.length_take_le _ _
      · exact ih later

theorem PropertyBlock.exists_make (tag value : Nat) {key : Nat} (keyFits : key < 0x10)
    (tagFits : tag < 0x1000000) (valueFits : value < 0x1000000000) :
    ∃ block, make key tag value = .ok block := by
  simp only [make, Nat.not_le.mpr keyFits, Nat.not_le.mpr tagFits, Nat.not_le.mpr valueFits,
    ↓reduceIte]
  exact ⟨_, rfl⟩

namespace Collection

theorem exists_textRecords (first : Nat) {chunks : List (List UInt8)}
    (short : ∀ chunk ∈ chunks, chunk.length ≤ textChunkSize) :
    ∃ records, textRecords first chunks = .ok records ∧ records.length = chunks.length := by
  have made : ∀ chunk ∈ chunks, ∀ next, ∃ record, TextRecord.ofData chunk next = .ok record := by
    intro chunk member next
    unfold TextRecord.ofData
    rw [dif_pos (short chunk member)]
    exact ⟨_, rfl⟩
  fun_induction textRecords first chunks with
  | case1 => exact ⟨[], rfl, rfl⟩
  | case2 first last =>
      obtain ⟨record, given⟩ := made last List.mem_cons_self none
      rw [given]
      exact ⟨[record], rfl, rfl⟩
  | case3 first chunk rest more ih =>
      obtain ⟨record, given⟩ := made chunk List.mem_cons_self (some (UInt32.ofNat (first + 1)))
      obtain ⟨records, onward, length⟩ := ih
        (fun other member => short other (List.mem_cons_of_mem _ member))
        (fun other member => made other (List.mem_cons_of_mem _ member))
      rw [given, onward]
      exact ⟨record :: records, rfl, by simp [length]⟩

private theorem exists_neighbour (absent : Prop) [Decidable absent] (id : Nat)
    (near : ¬absent → id < shortIdLimit) : ∃ link, neighbour absent id = .ok link := by
  unfold neighbour shortPointer
  by_cases alone : absent
  · rw [if_pos alone]
    exact ⟨_, rfl⟩
  · rw [if_neg alone, if_pos (near alone)]
    exact ⟨_, rfl⟩

theorem exists_propertyRecords (first before : Nat) {chunks : List (List PropertyBlock)}
    (small : ∀ chunk ∈ chunks, chunk.length ≤ blocksPerRecord)
    (near : 1 < before + chunks.length → first + chunks.length ≤ shortIdLimit) :
    ∃ records, propertyRecords first before chunks = .ok records ∧
      records.length = chunks.length := by
  induction chunks generalizing first before with
  | nil => exact ⟨[], rfl, rfl⟩
  | cons chunk rest ih =>
      obtain ⟨here, others⟩ := List.forall_mem_cons.mp small
      rw [List.length_cons] at near
      obtain ⟨records, onward, length⟩ := ih (first + 1) (before + 1) others (by omega)
      have made : ∃ record, PropertyRecord.ofBlocks chunk = .ok record := by
        unfold PropertyRecord.ofBlocks
        rw [if_neg (Nat.not_lt.mpr here)]
        exact ⟨_, rfl⟩
      obtain ⟨record, given⟩ := made
      obtain ⟨next, following⟩ := exists_neighbour (rest.isEmpty = true) (first + 1)
        fun more => by
          have : 0 < rest.length := List.length_pos_iff.mpr (by simpa using more)
          omega
      obtain ⟨previous, former⟩ := exists_neighbour (before = 0) (first - 1)
        fun more => by omega
      rw [propertyRecords_cons, given, onward]
      simp only [bind, Except.bind, following, former]
      exact ⟨_, rfl, congrArg (· + 1) length⟩

end Collection

/-!
## Writing
-/

/-- How many records the text of a value takes. -/
def PropertyValue.textCount : PropertyValue → Nat
  | .text value => (Collection.textChunks value).length
  | _ => 0

/-- The files that grow when planned properties are written. -/
def planKinds : List StoreKind := [.index, .string, .property]

namespace Opened

variable {opened : Opened} {before : Counts} {plan : PropertyPlan}

theorem completes_writeText {text : String}
    (room : before .string + (Collection.textChunks text).length < RecordFile.idLimit) :
    opened.Completes (opened.collection.writeText text) before fun _ counts =>
      counts = before.grow .string (Collection.textChunks text).length := by
  have short : ∀ chunk ∈ Collection.textChunks text, chunk.length ≤ textChunkSize :=
    fun _ member => length_le_of_mem_slices member
  obtain ⟨records, made, length⟩ :=
    Collection.exists_textRecords (before .string) short
  refine (gives_file .string).bind_completes ((gives_count .string).bind_completes ?_)
  refine (Gives.of made).bind_completes (completes_appendAll ?_ ?_ ?_)
  · rwa [length]
  · exact fun record _ endian => TextRecord.length_encode record endian
  · rw [length]

theorem completes_writeValue {key : Nat} {value : PropertyValue} (small : key < maxKeys)
    (fit : ∀ int, value = .int int → PropertyBlock.fits int.toInt = true)
    (room : before .string + value.textCount < RecordFile.idLimit) :
    opened.Completes (opened.collection.writeValue key value) before fun _ counts =>
      counts = before.grow .string value.textCount := by
  have keyFits : key < 0x10 := small
  cases value with
  | bool value =>
      obtain ⟨block, made⟩ := PropertyBlock.exists_make PropertyType.bool.tag value.toNat
        keyFits (by decide) (by cases value <;> decide)
      exact (Gives.of made).completes Counts.grow_zero.symm
  | int value =>
      have fits : PropertyBlock.fits value.toInt = true := fit value rfl
      obtain ⟨block, made⟩ := PropertyBlock.exists_make PropertyType.int.tag
        (BitVec.ofInt 36 value.toInt).toNat keyFits (by decide) (BitVec.isLt _)
      have packed : PropertyBlock.ofInt key value.toInt = .ok block := by
        rw [PropertyBlock.ofInt, if_pos fits, made]
      exact (Gives.of packed).completes Counts.grow_zero.symm
  | text text =>
      refine (completes_writeText room).bind fun head counts grown => ?_
      obtain ⟨block, made⟩ := PropertyBlock.exists_make PropertyType.string.tag head.toNat
        keyFits (by decide) (Nat.lt_trans head.toNat_lt (by decide))
      exact (Gives.of made).completes grown

theorem completes_writeValues {entries : List (Nat × PropertyValue)}
    (small : ∀ entry ∈ entries, entry.1 < maxKeys)
    (fit : ∀ entry ∈ entries, ∀ int, entry.2 = .int int → PropertyBlock.fits int.toInt = true)
    (room : before .string + (entries.map fun entry => entry.2.textCount).sum <
      RecordFile.idLimit) :
    opened.Completes (entries.mapM fun entry => opened.collection.writeValue entry.1 entry.2) before
      fun _ counts =>
        counts = before.grow .string (entries.map fun entry => entry.2.textCount).sum := by
  induction entries generalizing before with
  | nil =>
      rw [List.mapM_nil]
      exact (Gives.pure []).completes Counts.grow_zero.symm
  | cons entry rest ih =>
      obtain ⟨smallHere, smallRest⟩ := List.forall_mem_cons.mp small
      obtain ⟨fitHere, fitRest⟩ := List.forall_mem_cons.mp fit
      rw [List.map_cons, List.sum_cons] at room ⊢
      rw [List.mapM_cons]
      refine (completes_writeValue smallHere fitHere (by omega)).bind fun block counts grown => ?_
      subst grown
      refine (ih smallRest fitRest ?_).bind fun blocks counts grown => ?_
      · rw [Counts.grow_self]
        omega
      · refine (Gives.pure _).completes ?_
        rw [grown, Counts.grow_grow]

/-- The properties of a checked plan are written, whatever the files hold, and only the files of
keys, texts and properties grow. -/
theorem completes_plan {known : List String} (checked : plan.Checked known)
    (counted : known.length = before .index)
    (near : 1 < plan.recordCount →
      before .property + plan.recordCount ≤ Collection.shortIdLimit)
    (textRoom : before .string + (plan.entries.map fun entry => entry.2.textCount).sum <
      RecordFile.idLimit)
    (room : before .property + plan.recordCount < RecordFile.idLimit) :
    opened.Completes (opened.collection.writeProperties plan) before fun _ counts =>
      ∀ kind, kind ∉ planKinds → counts kind = before kind := by
  have written : ∀ counts : Counts, counts .string = before .string →
      counts .property = before .property →
      (∀ kind, kind ∉ planKinds → counts kind = before kind) →
      opened.Completes (do
        let blocks ← plan.entries.mapM fun entry =>
          opened.collection.writeValue entry.1 entry.2
        let file ← opened.collection.properties
        let first ← file.count
        let records ← Action.of (Collection.propertyRecords first 0
          (slices blocksPerRecord plan.recordCount blocks))
        return some (← file.appendAll records)) counts fun _ later =>
          ∀ kind, kind ∉ planKinds → later kind = before kind := by
    intro counts strings properties others
    refine (completes_writeValues checked.keys checked.ints (by rwa [strings])).bind
      fun blocks later grown => ?_
    have sameProperties : later .property = before .property := by
      rw [grown, Counts.grow_of_ne (by decide), properties]
    have small : ∀ chunk ∈ slices blocksPerRecord plan.recordCount blocks,
        chunk.length ≤ blocksPerRecord := fun _ member => length_le_of_mem_slices member
    obtain ⟨records, made, length⟩ := Collection.exists_propertyRecords (later .property) 0 small
      (by rw [length_slices, Nat.zero_add, sameProperties]; exact near)
    rw [length_slices] at length
    refine (gives_file .property).bind_completes ((gives_count .property).bind_completes ?_)
    refine (Gives.of made).bind_completes ?_
    have appended : opened.Completes ((opened.file .property).appendAll records) later
        fun _ last => last = later.grow .property records.length := by
      refine completes_appendAll ?_ ?_ rfl
      · rwa [length, sameProperties]
      · exact fun record _ endian => PropertyRecord.length_encode record endian
    refine appended.bind fun _ last grownLast => ?_
    refine (Gives.pure _).completes fun kind outside => ?_
    rw [grownLast, Counts.grow_of_ne fun same => outside (by simp [planKinds, same]), grown,
      Counts.grow_of_ne fun same => outside (by simp [planKinds, same]), others kind outside]
  unfold Collection.writeProperties
  by_cases empty : plan.isEmpty = true
  · simp only [empty, ↓reduceIte]
    exact (Gives.pure none).completes fun _ _ => rfl
  · by_cases known : plan.newKeys = []
    · simp only [empty, known, List.isEmpty_nil, Bool.not_true, Bool.false_eq_true, ↓reduceIte]
      exact written before rfl rfl fun _ _ => rfl
    · have more : (!plan.newKeys.isEmpty) = true := by simpa using known
      simp only [empty, more, Bool.false_eq_true, ↓reduceIte]
      obtain ⟨records, made⟩ := exists_mapM_eq_ok checked.names
      have few := checked.few known
      have length : plan.newKeys.length = records.length := (forall₂_of_mapM_eq_ok made).length_eq
      refine (Gives.of made).bind_completes ((gives_file .index).bind_completes ?_)
      have appended : opened.Completes ((opened.file .index).appendAll records) before
          fun _ counts => counts = before.grow .index records.length := by
        refine completes_appendAll ?_ ?_ rfl
        · simp only [RecordFile.idLimit, absentId, UInt32.reduceToNat]
          rw [maxKeys] at few
          omega
        · intro record member endian
          obtain ⟨name, given⟩ := exists_of_mem_mapM made member
          exact (KeyRecord.faithful_of_ofName given).length_encode endian
      refine appended.bind fun _ counts grown => ?_
      subst grown
      refine written _ (by simp) (by simp) fun kind outside => ?_
      exact Counts.grow_of_ne (fun same => outside (by simp [planKinds, same])) _

theorem completes_writeProperties {known : List String} (checked : plan.Checked known)
    (counted : known.length = before .index)
    (near : 1 < plan.recordCount →
      before .property + plan.recordCount ≤ Collection.shortIdLimit)
    (textRoom : before .string + (plan.entries.map fun entry => entry.2.textCount).sum <
      RecordFile.idLimit)
    (room : before .property + plan.recordCount < RecordFile.idLimit) :
    opened.Completes (opened.collection.writeProperties plan) before fun _ counts =>
      counts .node = before .node ∧ counts .nodeId = before .nodeId :=
  (completes_plan checked counted near textRoom room).imp fun _ _ others =>
    ⟨others .node (by decide), others .nodeId (by decide)⟩

end Opened

end GraphStore
