import GraphStore.Proofs.Record.Faithful

/-!
# All kinds of records

What holds of every kind of record there is. Main statement: records that can be come by are written
in the size of their kind and read back, and bytes are taken for a record if and only if they have
that size, up to what no field can hold.
-/

set_option autoImplicit false

namespace GraphStore

open StoredRecord FieldReader

/-- A kind of record. -/
inductive RecordKind where
  | node
  | nodeId
  | relationship
  | label
  | property
  | text
  | key
deriving Repr, DecidableEq

namespace RecordKind

abbrev Record : RecordKind → Type
  | node => NodeRecord
  | nodeId => NodeIdRecord
  | relationship => RelationshipRecord
  | label => LabelRecord
  | property => PropertyRecord
  | text => TextRecord
  | key => KeyRecord

instance (kind : RecordKind) : StoredRecord kind.Record :=
  match kind with
  | node => inferInstanceAs (StoredRecord NodeRecord)
  | nodeId => inferInstanceAs (StoredRecord NodeIdRecord)
  | relationship => inferInstanceAs (StoredRecord RelationshipRecord)
  | label => inferInstanceAs (StoredRecord LabelRecord)
  | property => inferInstanceAs (StoredRecord PropertyRecord)
  | text => inferInstanceAs (StoredRecord TextRecord)
  | key => inferInstanceAs (StoredRecord KeyRecord)

/-- Whether a record is made as its kind is made. Entries of the list of ids and relationships are
put together field by field. -/
def IsMade : (kind : RecordKind) → kind.Record → Prop
  | node, record => ∃ labels properties, record = NodeRecord.fresh labels properties
  | nodeId, _ => True
  | relationship, _ => True
  | label, record => ∃ labels, LabelRecord.ofLabels labels = .ok record
  | property, record => ∃ blocks, PropertyRecord.ofBlocks blocks = .ok record
  | text, record => ∃ data next, TextRecord.ofData data next = .ok record
  | key, record => ∃ name, KeyRecord.ofName name = .ok record

/-- Whether a record differs from another one at most in fields that may be set at will: the labels
of a label record, the data of a text record and the name of a key record may not. -/
def IsVariantOf : (kind : RecordKind) → (record origin : kind.Record) → Prop
  | label, record, origin => record.labels = origin.labels
  | text, record, origin => record.data = origin.data
  | key, record, origin => record.name = origin.name
  | _, _, _ => True

/-- Whether a record can be come by: it was made or read, and its open fields were set at will. -/
def IsObtainable (kind : RecordKind) (record : kind.Record) : Prop :=
  ∃ origin : kind.Record,
    (kind.IsMade origin ∨ ∃ endian bytes, decode endian bytes = .ok origin) ∧
      kind.IsVariantOf record origin

/-- The record that is read back: a pointer at the number that stands for none is none. -/
def readBack : (kind : RecordKind) → kind.Record → kind.Record
  | node, record =>
      { record with
        labels := record.labels.filter (· != absentId)
        relationships := record.relationships.filter (· != absentId)
        properties := record.properties.filter (· != absentId) }
  | nodeId, record => record
  | relationship, record =>
      { record with
        firstPrevious := record.firstPrevious.filter (· != absentId)
        firstNext := record.firstNext.filter (· != absentId)
        secondPrevious := record.secondPrevious.filter (· != absentId)
        secondNext := record.secondNext.filter (· != absentId)
        properties := record.properties.filter (· != absentId) }
  | label, record => record
  | property, record =>
      { record with
        next := record.next.filter (· != absentShortId)
        previous := record.previous.filter (· != absentShortId) }
  | text, record => { record with next := record.next.filter (· != absentId) }
  | key, record => record

theorem encode_readBack (kind : RecordKind) (endian : Endian) (record : kind.Record) :
    encode endian (kind.readBack record) = encode endian record := by
  cases kind with
  | node => simp only [readBack, encode, Field.pointer_filter]
  | nodeId => rfl
  | relationship => simp only [readBack, encode, Field.pointer_filter]
  | label => rfl
  | property => simp only [readBack, encode, Field.shortPointer_filter]
  | text => simp only [readBack, encode, Field.pointer_filter]
  | key => rfl

end RecordKind

/-!
## What is read
-/

theorem StoredRecord.decode_eq_ok_iff {ρ : Type} [StoredRecord ρ] {endian : Endian}
    {bytes : List UInt8} {record : ρ} :
    decode endian bytes = .ok record ↔
      bytes.length = size ρ ∧ (fields endian bytes).1 = .ok record := by
  rw [decode]
  split
  next exact_ => exact ⟨fun read => ⟨exact_, read⟩, fun given => given.2⟩
  next differs =>
    constructor
    · intro impossible
      cases impossible
    · exact fun given => absurd given.1 differs

namespace LabelRecord

theorem fst_fields (endian : Endian) (bytes : List UInt8) :
    (fields endian bytes : Except Error LabelRecord × List UInt8).1 =
      (labelsOfSlot ((bytes.drop 5).take slotWidth)).map fun labels =>
        { inUse := (flag bytes).1, reserved := (u32 endian (bytes.drop 1)).1, labels } := by
  simp only [fields, bind_apply, pure_apply, FieldReader.bytes, flag, u8, u32, List.drop_drop]

/-- What is read from a slot fits in the slot, since neighbours are one zero apart. -/
theorem fits_of_labelsOfSlot {slot : List UInt8} {labels : List String}
    (read : labelsOfSlot slot = .ok labels) :
    (∀ label ∈ labels, isLabel label) ∧ (payload labels).length ≤ slot.length := by
  have spelled : labels.map Text.Utf8.encode = nonemptyPieces 0 slot := by
    refine map_eq_of_mapM_eq_ok (fun piece label decoded => ?_) read
    split at decoded
    next found =>
      cases decoded
      exact Text.Utf8.decode_eq_ok_iff.mp found
    next => cases decoded
  constructor
  · intro label member
    have among : Text.Utf8.encode label ∈ nonemptyPieces 0 slot :=
      spelled ▸ List.mem_map_of_mem member
    obtain ⟨piece, filled⟩ := List.mem_filter.mp among
    exact isLabel_iff.mpr ⟨by simpa using filled, not_mem_of_mem_pieces piece⟩
  · rw [payload, spelled]
    exact length_intercalate_nonemptyPieces_le 0 slot

theorem fits_of_decode {record : LabelRecord} {endian : Endian} {bytes : List UInt8}
    (read : decode endian bytes = .ok record) :
    (∀ label ∈ record.labels, isLabel label) ∧ (payload record.labels).length ≤ slotWidth := by
  obtain ⟨-, held⟩ := decode_eq_ok_iff.mp read
  rw [fst_fields] at held
  obtain ⟨labels, found, rfl⟩ := exists_of_map_eq_ok held
  obtain ⟨all, fits⟩ := fits_of_labelsOfSlot found
  exact ⟨all, Nat.le_trans fits (List.length_take_le _ _)⟩

end LabelRecord

namespace KeyRecord

theorem fst_fields (endian : Endian) (bytes : List UInt8) :
    (fields endian bytes : Except Error KeyRecord × List UInt8).1 =
      match Text.Utf8.decode (((bytes.drop 2).take maxKeySize).take (u8 (bytes.drop 1)).1.toNat) with
      | .ok name => .ok { inUse := (flag bytes).1, name }
      | .error fault =>
          .error (.valueOutOfRange s!"property name is not UTF-8: {fault.message}") := by
  simp only [fields, bind_apply, FieldReader.bytes, flag, u8, pure_apply, List.drop_drop,
    Nat.reduceAdd]
  cases Text.Utf8.decode (((bytes.drop 2).take maxKeySize).take _) <;> rfl

theorem size_le_of_decode {record : KeyRecord} {endian : Endian} {bytes : List UInt8}
    (read : decode endian bytes = .ok record) : Text.Utf8.size record.name ≤ maxKeySize := by
  obtain ⟨-, held⟩ := decode_eq_ok_iff.mp read
  rw [fst_fields] at held
  split at held
  next name decoded =>
    cases held
    rw [Text.Utf8.size, Text.Utf8.decode_eq_ok_iff.mp decoded]
    exact Nat.le_trans (List.length_take_le' _ _) (List.length_take_le _ _)
  next => cases held

end KeyRecord

namespace RecordKind

theorem takes_fields (kind : RecordKind) (endian : Endian) :
    Takes (fields endian : FieldReader (Except Error kind.Record)) (size kind.Record) := by
  have pointer := takes_pointer endian
  have short := takes_shortPointer endian
  have number := takes_u32 endian
  cases kind with
  | node =>
      exact takes_flag.bind fun _ => pointer.bind fun _ => pointer.bind fun _ =>
        pointer.bind fun _ => .pure _
  | nodeId => exact takes_flag.bind fun _ => number.bind fun _ => .pure _
  | relationship =>
      exact takes_flag.bind fun _ => number.bind fun _ => number.bind fun _ => number.bind fun _ =>
        pointer.bind fun _ => pointer.bind fun _ => pointer.bind fun _ => pointer.bind fun _ =>
          pointer.bind fun _ => .pure _
  | label =>
      exact takes_flag.bind fun _ => number.bind fun _ => (takes_bytes _).bind fun _ => .pure _
  | property =>
      exact takes_flag.bind fun _ => short.bind fun _ => short.bind fun _ =>
        (takes_bytes 8).bind fun _ => (takes_bytes 8).bind fun _ => (takes_bytes 8).bind fun _ =>
          (takes_bytes 8).bind fun _ => .pure _
  | text =>
      refine takes_flag.bind fun _ => pointer.bind fun _ => takes_u8.bind fun length =>
        (takes_bytes textChunkSize).bind fun slot => (?_ : Takes _ 0)
      split
      · exact .pure _
      · exact .pure _
  | key =>
      refine takes_flag.bind fun _ => takes_u8.bind fun length =>
        (takes_bytes maxKeySize).bind fun slot => (?_ : Takes _ 0)
      split
      · exact .pure _
      · exact .pure _

/-- What the fields of a record cannot hold is told as such, whatever the bytes are. -/
theorem exists_valueOutOfRange_of_fields (kind : RecordKind) {endian : Endian} {bytes : List UInt8}
    {error : Error}
    (failed : (fields endian bytes : Except Error kind.Record × List UInt8).1 = .error error) :
    ∃ detail, error = .valueOutOfRange detail := by
  cases kind with
  | node => cases failed
  | nodeId => cases failed
  | relationship => cases failed
  | label =>
      change (fields endian bytes : Except Error LabelRecord × List UInt8).1 = _ at failed
      rw [LabelRecord.fst_fields] at failed
      cases read : LabelRecord.labelsOfSlot ((bytes.drop 5).take LabelRecord.slotWidth) with
      | ok labels =>
          rw [read] at failed
          cases failed
      | error found =>
          rw [read] at failed
          cases failed
          obtain ⟨piece, -, refused⟩ := exists_of_mapM_eq_error read
          split at refused
          · cases refused
          · cases refused
            exact ⟨_, rfl⟩
  | property => cases failed
  | text =>
      simp only [fields, bind_apply] at failed
      split at failed
      · cases failed
      · cases failed
        exact ⟨_, rfl⟩
  | key =>
      change (fields endian bytes : Except Error KeyRecord × List UInt8).1 = _ at failed
      rw [KeyRecord.fst_fields] at failed
      split at failed
      · cases failed
      · cases failed
        exact ⟨_, rfl⟩

theorem malformedRecord_iff (kind : RecordKind) (endian : Endian) (bytes : List UInt8) :
    (∃ name expected actual, (decode endian bytes : Except Error kind.Record) =
      .error (.malformedRecord name expected actual)) ↔ bytes.length ≠ size kind.Record := by
  rw [decode]
  split
  next exact_ =>
    constructor
    · intro given
      obtain ⟨name, expected, actual, failed⟩ := given
      obtain ⟨detail, impossible⟩ := exists_valueOutOfRange_of_fields kind failed
      cases impossible
    · exact fun differs => absurd exact_ differs
  next differs => exact ⟨fun _ => differs, fun _ => ⟨_, _, _, rfl⟩⟩

theorem faithful_readBack (kind : RecordKind) {record : kind.Record}
    (obtainable : kind.IsObtainable record) : Faithful (kind.readBack record) := by
  have present : ∀ id : Option RecordId, id.filter (· != absentId) ≠ some absentId := by
    simp [Option.filter_eq_some_iff]
  have short : ∀ id : Option UInt16, id.filter (· != absentShortId) ≠ some absentShortId := by
    simp [Option.filter_eq_some_iff]
  obtain ⟨origin, source, variant⟩ := obtainable
  cases kind with
  | node => exact NodeRecord.faithful (present _) (present _) (present _)
  | nodeId => exact NodeIdRecord.faithful record
  | relationship =>
      exact RelationshipRecord.faithful (present _) (present _) (present _) (present _) (present _)
  | label =>
      have fits : (∀ label ∈ origin.labels, LabelRecord.isLabel label) ∧
          (LabelRecord.payload origin.labels).length ≤ LabelRecord.slotWidth := by
        rcases source with ⟨labels, made⟩ | ⟨endian, bytes, read⟩
        · obtain ⟨-, all, fits, rfl⟩ := LabelRecord.ofLabels_eq_ok_iff.mp made
          exact ⟨all, fits⟩
        · exact LabelRecord.fits_of_decode read
      have same : record.labels = origin.labels := variant
      rw [← same] at fits
      exact LabelRecord.faithful fits.1 fits.2
  | property => exact PropertyRecord.faithful (short _) (short _)
  | text => exact TextRecord.faithful (present _)
  | key =>
      have fits : Text.Utf8.size origin.name ≤ maxKeySize := by
        rcases source with ⟨name, made⟩ | ⟨endian, bytes, read⟩
        · obtain ⟨-, fits, rfl⟩ := KeyRecord.ofName_eq_ok_iff.mp made
          exact fits
        · exact KeyRecord.size_le_of_decode read
      have same : record.name = origin.name := variant
      rw [← same] at fits
      exact KeyRecord.faithful fits

/-- No pointer that is read is at the number that stands for none. -/
theorem readBack_of_decode (kind : RecordKind) {endian : Endian} {bytes : List UInt8}
    {record : kind.Record} (read : decode endian bytes = .ok record) :
    kind.readBack record = record := by
  obtain ⟨-, held⟩ := decode_eq_ok_iff.mp read
  cases kind with
  | node =>
      simp only [fields, bind_apply, pure_apply, Except.ok.injEq] at held
      subst held
      simp only [readBack, filter_fst_pointer]
  | nodeId => rfl
  | relationship =>
      simp only [fields, bind_apply, pure_apply, Except.ok.injEq] at held
      subst held
      simp only [readBack, filter_fst_pointer]
  | label => rfl
  | property =>
      simp only [fields, bind_apply, pure_apply, Except.ok.injEq] at held
      subst held
      simp only [readBack, filter_fst_shortPointer]
  | text =>
      simp only [fields, bind_apply] at held
      split at held
      · simp only [pure_apply, Except.ok.injEq] at held
        subst held
        simp only [readBack, filter_fst_pointer]
      · cases held
  | key => rfl

theorem isObtainable_of_decode (kind : RecordKind) {endian : Endian} {bytes : List UInt8}
    {record : kind.Record} (read : decode endian bytes = .ok record) : kind.IsObtainable record := by
  refine ⟨record, .inr ⟨endian, bytes, read⟩, ?_⟩
  cases kind <;> trivial

/-- Whatever its kind and the byte order, a record that can be come by is written in the size of its
kind and read back, but for pointers at the number that stands for none. Bytes of another size
are refused as malformed, and no others; nothing behind the record is read; and what is read is
written in the size of its kind and read again. -/
theorem encode_decode_inverse (kind : RecordKind) (endian : Endian) :
    (∀ record : kind.Record, kind.IsObtainable record →
      (encode endian record).length = size kind.Record ∧
        decode endian (encode endian record) = .ok (kind.readBack record)) ∧
    (∀ bytes, (∃ name expected actual, (decode endian bytes : Except Error kind.Record) =
      .error (.malformedRecord name expected actual)) ↔ bytes.length ≠ size kind.Record) ∧
    (∀ bytes rest, bytes.length = size kind.Record →
      (fields endian (bytes ++ rest) : Except Error kind.Record × List UInt8) =
        ((fields endian bytes).1, rest)) ∧
    ∀ bytes (record : kind.Record), decode endian bytes = .ok record →
      (encode endian record).length = size kind.Record ∧
        decode endian (encode endian record) = .ok record := by
  have inverse : ∀ record : kind.Record, kind.IsObtainable record →
      (encode endian record).length = size kind.Record ∧
        decode endian (encode endian record) = .ok (kind.readBack record) := by
    intro record obtainable
    have faithful := kind.faithful_readBack obtainable
    rw [← kind.encode_readBack endian record]
    exact ⟨faithful.length_encode endian, faithful.decode_encode endian⟩
  refine ⟨inverse, kind.malformedRecord_iff endian, kind.takes_fields endian, ?_⟩
  intro bytes record read
  have again := inverse record (kind.isObtainable_of_decode read)
  rwa [kind.readBack_of_decode read] at again

/-- A slot that begins with zeros and has two of them between its labels. -/
def spacedLabels : List UInt8 :=
  [7, 1, 2, 3, 4, 0, 0, 0x61, 0, 0, 0xC3, 0xA9] ++ List.replicate 53 0

/-- Spaces between labels are closed when they are written again, and a pointer at the number that
stands for none is lost. -/
theorem encode_decode_spaced_labels :
    let labels : LabelRecord := { inUse := true, reserved := 0x01020304, labels := ["a", "é"] }
    let node : NodeRecord :=
      { inUse := true, labels := some absentId, relationships := none, properties := some 3 }
    decode .big spacedLabels = .ok labels ∧
      (encode .big labels).length = 65 ∧ decode .big (encode .big labels) = .ok labels ∧
      spacedLabels.length = 65 ∧
      fields .big (spacedLabels ++ [9]) =
        ((fields .big spacedLabels : Except Error LabelRecord × List UInt8).1, [9]) ∧
      label.IsObtainable labels ∧ RecordKind.node.IsObtainable node ∧
      (encode .little node).length = 13 ∧
      decode .little (encode .little node) = .ok { node with labels := none } := by
  intro labels node
  have read : decode .big spacedLabels = .ok labels := by decide +kernel
  have given : RecordKind.node.IsObtainable node :=
    ⟨.fresh none none, .inl ⟨none, none, rfl⟩, trivial⟩
  obtain ⟨inverse, -, leaves, again⟩ := encode_decode_inverse .label .big
  obtain ⟨length, back⟩ := again spacedLabels labels read
  obtain ⟨nodeLength, nodeBack⟩ := (encode_decode_inverse .node .little).1 node given
  exact ⟨read, length, back, rfl, leaves spacedLabels [9] rfl,
    label.isObtainable_of_decode read, given, nodeLength, nodeBack⟩

end RecordKind

end GraphStore
