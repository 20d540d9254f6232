import GraphStore.Proofs.Disk.Runs
import GraphStore.Proofs.Store.Site

/-!
# Record files with any bytes

What comes of each operation of a record file where its path leads to a file, whatever the bytes of
that file are. Main statements: one equation for each operation, from counting to writing over a
record.
-/

set_option autoImplicit false

namespace GraphStore

open StoredRecord

namespace FileSystem.HasFile

variable {system : FileSystem} {path place : Path} {content : Content}
  (file : system.HasFile path place content)
include file

theorem runOn_size : (Action.on path (Disk.size path)).runOn system =
    (.ok content.toList.length, system) := by
  refine Action.runOn_on ?_
  rw [Disk.run_eq_trace, file.trace_size, Content.size_eq_length]
  rfl

theorem runOn_content : (Action.on path (Disk.content path)).runOn system =
    (.ok content.toList, system) := by
  refine Action.runOn_on ?_
  rw [Disk.run_eq_trace, file.trace_content]
  rfl

theorem runOn_slice (offset count : Nat) :
    (Action.on path (Disk.slice path offset count)).runOn system =
      (.ok ((content.toList.drop offset).take count), system) := by
  refine Action.runOn_on ?_
  rw [Disk.run_eq_trace, file.trace_slice, Content.slice_eq]
  rfl

end FileSystem.HasFile

namespace RecordFile

/-- The bytes at which the record with a number stands. -/
def slot (ρ : Type) [StoredRecord ρ] (bytes : List UInt8) (id : RecordId) : List UInt8 :=
  (bytes.drop (offset ρ id)).take (size ρ)

/-- Why a number is refused by a file with `held` records. -/
def missing (ρ : Type) [StoredRecord ρ] (held : Nat) (id : RecordId) : Error :=
  .notFound s!"{kindName ρ} record {id} (store holds {held})"

/-- Why a record whose slot is not taken is refused. -/
def free (ρ : Type) [StoredRecord ρ] (id : RecordId) : Error :=
  .notFound s!"{kindName ρ} record {id} is not in use"

variable {ρ : Type} [StoredRecord ρ] {file : RecordFile ρ} {system : FileSystem} {place : Path}
  {content : Content} {held : Nat}

theorem slot_fileBytes {kind : StoreKind} {records : List kind.Record}
    {record : kind.Record} {id : RecordId} (faithful : ∀ record ∈ records, Faithful record)
    (endian : Endian) (found : records[id.toNat]? = some record) :
    slot kind.Record (fileBytes endian kind records) id = encode endian record := by
  have equal : ∀ record ∈ records, (encode endian record).length = size kind.Record :=
    fun record member => (faithful record member).length_encode endian
  rw [slot, fileBytes, offset, ← List.drop_drop, List.drop_left' (StoreHeader.length_encode _),
    slice_flatMap_of_forall equal found]

theorem countOf_eq_ok_iff (path : Path) {bytes count : Nat}
    (positive : 0 < size ρ) (long : headerSize ≤ bytes) :
    countOf ρ path bytes = .ok count ↔
      bytes = headerSize + count * size ρ ∧ count < 0x100000000 := by
  simp only [countOf]
  constructor
  · intro counted
    split at counted
    · cases counted
    next whole =>
      split at counted
      · cases counted
      next few =>
        cases counted
        have parts := Nat.div_add_mod' (bytes - headerSize) (size ρ)
        omega
  · intro given
    obtain ⟨rfl, few⟩ := given
    simp only [Nat.add_sub_cancel_left, Nat.mul_mod_left, Nat.mul_div_cancel _ positive,
      Nat.not_le.mpr few, ne_eq, not_true_eq_false, ↓reduceIte]

section

variable (stands : system.HasFile file.path place content)
include stands

theorem runOn_count :
    file.count.runOn system = (countOf ρ file.path content.toList.length, system) := by
  unfold count
  rw [Action.runOn_bind_of_ok _ system stands.runOn_size]
  rfl

variable (counted : countOf ρ file.path content.toList.length = .ok held)
include counted

theorem runOn_count_of_counted : file.count.runOn system = (.ok held, system) := by
  rw [runOn_count stands, counted]

theorem runOn_checkId (id : RecordId) :
    (file.checkId id).runOn system =
      (if held ≤ id.toNat then .error (missing ρ held id) else .ok (), system) := by
  unfold checkId
  rw [Action.runOn_bind_of_ok _ system (runOn_count_of_counted stands counted)]
  split <;> rfl

theorem runOn_read_of_le {id : RecordId} (outside : held ≤ id.toNat) :
    (file.read id).runOn system = (.error (missing ρ held id), system) := by
  refine Action.runOn_bind_of_error ?_ _
  rw [runOn_checkId stands counted, if_pos outside]

theorem runOn_read_of_lt {id : RecordId} (inside : id.toNat < held) :
    (file.read id).runOn system = (decode file.endian (slot ρ content.toList id), system) := by
  have checked : (file.checkId id).runOn system = (.ok (), system) := by
    rw [runOn_checkId stands counted, if_neg (Nat.not_le.mpr inside)]
  unfold read
  rw [Action.runOn_bind_of_ok () system checked,
    Action.runOn_bind_of_ok _ system (stands.runOn_slice _ _)]
  rfl

theorem runOn_readAll :
    file.readAll.runOn system =
      ((slices (size ρ) held (content.toList.drop headerSize)).mapM (decode file.endian),
        system) := by
  have number : (Action.of (countOf ρ file.path content.toList.length)).runOn system =
      (.ok held, system) := by
    rw [counted]
    rfl
  unfold readAll
  rw [Action.runOn_bind_of_ok _ system stands.runOn_content,
    Action.runOn_bind_of_ok held system number]
  rfl

theorem runOn_appendAll_of_le {records : List ρ} (crowded : idLimit ≤ held + records.length) :
    (file.appendAll records).runOn system =
      (.error (.payloadTooLarge "record id" (idLimit - 1) (held + records.length)), system) := by
  unfold appendAll
  rw [Action.runOn_bind_of_ok held system (runOn_count_of_counted stands counted)]
  simp only [crowded, ↓reduceIte]
  rfl

theorem runOn_appendAll_of_lt {records : List ρ} (room : held + records.length < idLimit) :
    (file.appendAll records).runOn system =
      (.ok (UInt32.ofNat held), system.put place
        (.file (content.append (records.flatMap (encode file.endian))))) := by
  unfold appendAll
  rw [Action.runOn_bind_of_ok held system (runOn_count_of_counted stands counted)]
  simp only [Nat.not_le.mpr room, ↓reduceIte]
  rw [Action.runOn_bind_of_ok () _ (Action.runOn_on (Disk.run_change (stands.change_append _)))]
  rfl

theorem runOn_writeAt_of_le {id : RecordId} (outside : held ≤ id.toNat) (record : ρ) :
    (file.writeAt id record).runOn system = (.error (missing ρ held id), system) := by
  refine Action.runOn_bind_of_error ?_ _
  rw [runOn_checkId stands counted, if_pos outside]

theorem runOn_writeAt_of_lt {id : RecordId} (inside : id.toNat < held) (record : ρ) :
    (file.writeAt id record).runOn system =
      (.ok (), system.put place
        (.file (content.overwrite (offset ρ id) (encode file.endian record)))) := by
  have checked : (file.checkId id).runOn system = (.ok (), system) := by
    rw [runOn_checkId stands counted, if_neg (Nat.not_le.mpr inside)]
  unfold writeAt
  rw [Action.runOn_bind_of_ok () system checked]
  exact Action.runOn_on (Disk.run_change (stands.change_overwrite _ _))

end

theorem runOn_readInUse_of_error {id : RecordId} {error : Error} {last : FileSystem}
    (failed : (file.read id).runOn system = (.error error, last)) :
    (file.readInUse id).runOn system = (.error error, last) :=
  Action.runOn_bind_of_error failed _

theorem runOn_readInUse_of_ok {id : RecordId} {record : ρ} {last : FileSystem}
    (found : (file.read id).runOn system = (.ok record, last)) :
    (file.readInUse id).runOn system =
      (if inUse record then .ok record else .error (free ρ id), last) := by
  unfold readInUse
  rw [Action.runOn_bind_of_ok record last found]
  split <;> rfl

/-- A file whose header is that of its kind and whose body is whole is opened with that header. -/
theorem runOn_openAs {kind : StoreKind} {path : Path} {header : StoreHeader}
    (declared : kind.recordSize = size ρ) (stands : system.HasFile path place content)
    (decoded : StoreHeader.decodeAs kind path.text (content.toList.take headerSize) = .ok header)
    (long : headerSize ≤ content.toList.length)
    (counted : countOf ρ path content.toList.length = .ok held) :
    (openAs ρ kind path).runOn system = (.ok ⟨path, header⟩, system) := by
  have reaches : ¬(content.toList.take headerSize).length < headerSize := by
    rw [List.length_take]
    omega
  have checked : (Action.of (StoreHeader.decodeAs kind path.text
      (content.toList.take headerSize))).runOn system = (.ok header, system) := by
    rw [decoded]
    rfl
  have count : (RecordFile.mk path header : RecordFile ρ).count.runOn system =
      (.ok held, system) := runOn_count_of_counted stands counted
  unfold openAs
  simp only [declared, ne_eq, not_true_eq_false, ↓reduceIte]
  refine (Action.runOn_bind_of_ok _ system (stands.runOn_slice 0 headerSize) _).trans ?_
  rw [List.drop_zero]
  simp only [reaches, ↓reduceIte]
  refine (Action.runOn_bind_of_ok header system checked _).trans ?_
  rw [Action.runOn_bind_of_ok held system count]
  rfl

end RecordFile

end GraphStore
