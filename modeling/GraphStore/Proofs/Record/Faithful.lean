import GraphStore.Proofs.Bytes.Fields
import GraphStore.Proofs.Bytes.Pieces
import GraphStore.Proofs.Success
import GraphStore.Proofs.Text.Utf8
import GraphStore.Store.Kind

/-!
# Records that are read back

A record is faithful when its bytes have the size of its kind and hold it again, in either byte
order. Main statements: every kind of record is faithful as the engine makes it.
-/

set_option autoImplicit false

namespace GraphStore

open StoredRecord

namespace StoredRecord

variable {ρ : Type} [StoredRecord ρ]

/-- Whether a record can be written and read back. -/
structure Faithful (record : ρ) : Prop where
  length_encode (endian : Endian) : (encode endian record).length = size ρ
  decode_encode (endian : Endian) : decode endian (encode endian record) = .ok record

/-- A record is faithful if its fields take its size and are read back one after the other. -/
theorem faithful_of_fields {record : ρ}
    (length : ∀ endian, (encode endian record).length = size ρ)
    (held : ∀ endian, fields endian (encode endian record ++ []) = (.ok record, [])) :
    Faithful record where
  length_encode := length
  decode_encode endian := by
    have read := held endian
    rw [List.append_nil] at read
    rw [decode, if_pos (length endian), read]

end StoredRecord

open FieldReader

/-!
## Nodes and relationships
-/

theorem NodeRecord.length_encode (record : NodeRecord) (endian : Endian) :
    (encode endian record).length = size NodeRecord := by
  simp [encode, size]

theorem NodeRecord.faithful {record : NodeRecord} (labels : record.labels ≠ some absentId)
    (relationships : record.relationships ≠ some absentId)
    (properties : record.properties ≠ some absentId) : Faithful record := by
  apply faithful_of_fields
  · exact record.length_encode
  · intro endian
    simp only [fields, encode, List.append_assoc]
    rw [bind_of_eq (flag_append _ _), bind_of_eq (pointer_append endian labels _),
      bind_of_eq (pointer_append endian relationships _),
      bind_of_eq (pointer_append endian properties _), pure_apply]

theorem NodeIdRecord.faithful (record : NodeIdRecord) : Faithful record := by
  apply faithful_of_fields
  · intro endian
    simp [encode, size]
  · intro endian
    simp only [fields, encode, List.append_assoc]
    rw [bind_of_eq (flag_append _ _), bind_of_eq (u32_append endian _ _), pure_apply]

theorem RelationshipRecord.length_encode (record : RelationshipRecord) (endian : Endian) :
    (encode endian record).length = size RelationshipRecord := by
  simp [encode, size]

theorem RelationshipRecord.faithful {record : RelationshipRecord}
    (firstPrevious : record.firstPrevious ≠ some absentId)
    (firstNext : record.firstNext ≠ some absentId)
    (secondPrevious : record.secondPrevious ≠ some absentId)
    (secondNext : record.secondNext ≠ some absentId)
    (properties : record.properties ≠ some absentId) : Faithful record := by
  apply faithful_of_fields
  · exact record.length_encode
  · intro endian
    simp only [fields, encode, List.append_assoc]
    rw [bind_of_eq (flag_append _ _), bind_of_eq (u32_append endian _ _),
      bind_of_eq (u32_append endian _ _), bind_of_eq (u32_append endian _ _),
      bind_of_eq (pointer_append endian firstPrevious _),
      bind_of_eq (pointer_append endian firstNext _),
      bind_of_eq (pointer_append endian secondPrevious _),
      bind_of_eq (pointer_append endian secondNext _),
      bind_of_eq (pointer_append endian properties _), pure_apply]

/-!
## Labels and keys
-/

namespace LabelRecord

theorem isLabel_iff {text : String} :
    isLabel text ↔ Text.Utf8.encode text ≠ [] ∧ 0 ∉ Text.Utf8.encode text := by
  have filled : text.isEmpty = false ↔ Text.Utf8.encode text ≠ [] := by
    rw [Ne, Text.Utf8.encode_eq_nil_iff, ← Bool.not_eq_true, String.isEmpty_iff]
  simp only [isLabel, Bool.and_eq_true, Bool.not_eq_true', filled, List.contains_eq_mem,
    decide_eq_false_iff_not]

/-- What the record of some labels holds. -/
theorem ofLabels_eq_ok_iff {labels : List String} {record : LabelRecord} :
    ofLabels labels = .ok record ↔
      labels.length ≤ maxLabels ∧ (∀ label ∈ labels, isLabel label) ∧
        (payload labels).length ≤ slotWidth ∧
        record = { inUse := true, reserved := 0, labels } := by
  unfold ofLabels
  split
  next many =>
    constructor
    · intro made
      cases made
    · intro given
      obtain ⟨few, -⟩ := given
      omega
  next few =>
    split
    next bad found =>
      have member := List.mem_of_find?_eq_some found
      have refused := List.find?_some found
      constructor
      · intro made
        cases made
      · intro given
        obtain ⟨-, all, -⟩ := given
        rw [all bad member] at refused
        cases refused
    next none =>
      have all : ∀ label ∈ labels, isLabel label := by
        simpa using List.find?_eq_none.mp none
      split
      next long =>
        constructor
        · intro made
          cases made
        · intro given
          obtain ⟨-, -, fits, -⟩ := given
          omega
      next fits =>
        constructor
        · intro made
          exact ⟨Nat.le_of_not_lt few, all, Nat.le_of_not_lt fits, (Except.ok.inj made).symm⟩
        · intro given
          obtain ⟨-, -, -, rfl⟩ := given
          rfl

theorem labelsOfSlot_padded {labels : List String} (all : ∀ label ∈ labels, isLabel label) :
    labelsOfSlot (Field.padded slotWidth (payload labels)) = .ok labels := by
  have cut : nonemptyPieces 0 (Field.padded slotWidth (payload labels)) =
      labels.map Text.Utf8.encode := by
    apply nonemptyPieces_intercalate
    · intro part member
      obtain ⟨label, among, rfl⟩ := List.mem_map.mp member
      exact (isLabel_iff.mp (all label among)).1
    · intro part member
      obtain ⟨label, among, rfl⟩ := List.mem_map.mp member
      exact (isLabel_iff.mp (all label among)).2
  rw [labelsOfSlot, cut, List.mapM_map]
  refine (mapM_eq_ok fun label _ => ?_).trans (congrArg Except.ok (List.map_id labels))
  rw [Function.comp, Text.Utf8.decode_encode]
  rfl

/-- Labels that fit in the slot are read back, however many there are. -/
theorem faithful {record : LabelRecord} (all : ∀ label ∈ record.labels, isLabel label)
    (fits : (payload record.labels).length ≤ slotWidth) : Faithful record := by
  have slot := Field.length_padded fits
  apply faithful_of_fields
  · intro endian
    simp only [encode, size, List.length_append, Field.length_flag, Field.length_u32, slot]
    rfl
  · intro endian
    simp only [fields, encode, List.append_assoc]
    rw [bind_of_eq (flag_append _ _), bind_of_eq (u32_append endian _ _),
      bind_of_eq (bytes_append slot _), pure_apply, labelsOfSlot_padded all]
    rfl

theorem faithful_of_ofLabels {labels : List String} {record : LabelRecord}
    (made : ofLabels labels = .ok record) : Faithful record := by
  obtain ⟨-, all, fits, rfl⟩ := ofLabels_eq_ok_iff.mp made
  exact faithful all fits

end LabelRecord

namespace KeyRecord

theorem ofName_eq_ok_iff {name : String} {record : KeyRecord} :
    ofName name = .ok record ↔
      name.isEmpty = false ∧ Text.Utf8.size name ≤ maxKeySize ∧
        record = { inUse := true, name } := by
  unfold ofName
  split
  next bad =>
    constructor
    · intro made
      cases made
    · intro given
      obtain ⟨filled, fits, -⟩ := given
      simp [filled, Nat.not_lt.mpr fits] at bad
  next good =>
    simp only [Bool.or_eq_true, decide_eq_true_eq, not_or, Bool.not_eq_true, Nat.not_lt] at good
    constructor
    · intro made
      exact ⟨good.1, good.2, (Except.ok.inj made).symm⟩
    · intro given
      obtain ⟨-, -, rfl⟩ := given
      rfl

theorem faithful {record : KeyRecord} (fits : Text.Utf8.size record.name ≤ maxKeySize) :
    Faithful record := by
  have slot := Field.length_padded fits
  have held : (UInt8.ofNat (Text.Utf8.size record.name)).toNat =
      (Text.Utf8.encode record.name).length := by
    rw [UInt8.toNat_ofNat', Text.Utf8.size]
    rw [Text.Utf8.size, maxKeySize] at fits
    omega
  apply faithful_of_fields
  · intro endian
    simp only [encode, size, List.length_append, List.length_cons, Field.length_flag, slot]
    rfl
  · intro endian
    simp only [fields, encode, List.append_assoc, List.cons_append]
    rw [bind_of_eq (flag_append _ _), bind_of_eq (u8_cons _ _), bind_of_eq (bytes_append slot _),
      held, Field.take_padded, Text.Utf8.decode_encode]
    rfl

theorem faithful_of_ofName {name : String} {record : KeyRecord}
    (made : ofName name = .ok record) : Faithful record := by
  obtain ⟨-, fits, rfl⟩ := ofName_eq_ok_iff.mp made
  exact faithful fits

end KeyRecord

/-!
## Texts and properties
-/

theorem TextRecord.length_encode (record : TextRecord) (endian : Endian) :
    (encode endian record).length = size TextRecord := by
  have slot := Field.length_padded record.data_le
  simp only [encode, size, List.length_append, List.length_cons, Field.length_flag,
    Field.length_pointer, slot]
  rfl

theorem TextRecord.faithful {record : TextRecord} (next : record.next ≠ some absentId) :
    Faithful record := by
  obtain ⟨inUse, link, data, fits⟩ := record
  have slot := Field.length_padded fits
  have held : (UInt8.ofNat data.length).toNat = data.length := by
    rw [UInt8.toNat_ofNat']
    rw [textChunkSize] at fits
    omega
  apply faithful_of_fields
  · exact TextRecord.length_encode _
  · intro endian
    simp only [fields, encode, List.append_assoc, List.cons_append]
    rw [bind_of_eq (flag_append _ _), bind_of_eq (pointer_append endian next _),
      bind_of_eq (u8_cons _ _), bind_of_eq (bytes_append slot _)]
    have short : (UInt8.ofNat data.length).toNat ≤ textChunkSize := held.symm ▸ fits
    rw [dif_pos short, pure_apply]
    simp only [held, Field.take_padded]

theorem PropertyBlock.length_pack (block : PropertyBlock) : block.pack.length = 8 :=
  Endian.big.length_write 8 _

private theorem fourfold_congr {α : Type} {first second third fourth : α} (f : α → α)
    (same : ∀ value, f value = value) :
    #v[f first, f second, f third, f fourth] = #v[first, second, third, fourth] := by
  rw [same, same, same, same]

/-- Four blocks that are packed and unpacked are the four blocks. -/
private theorem blocks_cases (blocks : Vector PropertyBlock blocksPerRecord) :
    ∃ first second third fourth, blocks.toList = [first, second, third, fourth] ∧
      #v[.unpack first.pack, .unpack second.pack, .unpack third.pack, .unpack fourth.pack] =
        blocks := by
  have shape : blocks = #v[blocks[0], blocks[1], blocks[2], blocks[3]] := by
    ext slot inside
    match slot, inside with
    | 0, _ => rfl
    | 1, _ => rfl
    | 2, _ => rfl
    | 3, _ => rfl
  refine ⟨blocks[0], blocks[1], blocks[2], blocks[3], congrArg Vector.toList shape, ?_⟩
  exact (fourfold_congr (fun block => .unpack block.pack) PropertyBlock.unpack_pack).trans shape.symm

theorem PropertyRecord.length_encode (record : PropertyRecord) (endian : Endian) :
    (encode endian record).length = size PropertyRecord := by
  obtain ⟨first, second, third, fourth, listed, _⟩ := blocks_cases record.blocks
  simp [encode, size, listed, PropertyBlock.length_pack]

theorem PropertyRecord.faithful {record : PropertyRecord}
    (next : record.next ≠ some absentShortId) (previous : record.previous ≠ some absentShortId) :
    Faithful record := by
  obtain ⟨inUse, following, former, blocks⟩ := record
  obtain ⟨first, second, third, fourth, listed, unpacked⟩ := blocks_cases blocks
  have packed := PropertyBlock.length_pack
  apply faithful_of_fields
  · exact PropertyRecord.length_encode _
  · intro endian
    simp only [fields, encode, List.append_assoc, listed, List.flatMap_cons, List.flatMap_nil]
    rw [bind_of_eq (flag_append _ _), bind_of_eq (shortPointer_append endian next _),
      bind_of_eq (shortPointer_append endian previous _),
      bind_of_eq (bytes_append (packed first) _), bind_of_eq (bytes_append (packed second) _),
      bind_of_eq (bytes_append (packed third) _), bind_of_eq (bytes_append (packed fourth) _),
      pure_apply, unpacked, List.append_nil]

end GraphStore
