import GraphStore.Collection.Basic
import GraphStore.Proofs.Bytes.Slices
import GraphStore.Proofs.Disk.Trace
import GraphStore.Proofs.Record.Faithful
import GraphStore.Proofs.Store.Header
import Mathlib.Logic.Function.Basic

/-!
# The records in the files of a collection

The files of a collection as lists of records, and the file systems that hold these lists. Main
statements: a file that is written over holds its new records, the other files hold what they held,
and nothing beside the files has changed.
-/

set_option autoImplicit false

namespace GraphStore

open StoredRecord

/-!
## Numbers of records
-/

theorem toNat_ofNat_of_lt {number : Nat} (room : number < RecordFile.idLimit) :
    (UInt32.ofNat number).toNat = number := by
  simp only [RecordFile.idLimit, absentId, UInt32.reduceToNat] at room
  rw [UInt32.toNat_ofNat']
  omega

/-- The number of a record is never the one that stands for none. -/
theorem ofNat_ne_absentId {number : Nat} (room : number < RecordFile.idLimit) :
    some (UInt32.ofNat number) ≠ some absentId := by
  intro same
  have equal := congrArg UInt32.toNat (Option.some.inj same)
  rw [toNat_ofNat_of_lt room] at equal
  exact absurd equal (Nat.ne_of_lt room)

/-!
## Lists of records
-/

/-- The records in a file of some kind. -/
abbrev StoreKind.Record : StoreKind → Type
  | .node => NodeRecord
  | .nodeId => NodeIdRecord
  | .relationship => RelationshipRecord
  | .label => LabelRecord
  | .property => PropertyRecord
  | .string => TextRecord
  | .array => TextRecord
  | .index => KeyRecord

instance : (kind : StoreKind) → StoredRecord kind.Record
  | .node => inferInstanceAs (StoredRecord NodeRecord)
  | .nodeId => inferInstanceAs (StoredRecord NodeIdRecord)
  | .relationship => inferInstanceAs (StoredRecord RelationshipRecord)
  | .label => inferInstanceAs (StoredRecord LabelRecord)
  | .property => inferInstanceAs (StoredRecord PropertyRecord)
  | .string => inferInstanceAs (StoredRecord TextRecord)
  | .array => inferInstanceAs (StoredRecord TextRecord)
  | .index => inferInstanceAs (StoredRecord KeyRecord)

namespace StoreKind

theorem recordSize_eq (kind : StoreKind) : kind.recordSize = size kind.Record := by
  cases kind <;> rfl

theorem size_pos (kind : StoreKind) : 0 < size kind.Record := by
  cases kind <;> decide

theorem fileName_injective {left right : StoreKind} (same : left.fileName = right.fileName) :
    left = right := by
  cases left <;> cases right <;> first | rfl | exact absurd same (by decide)

theorem isStep_fileName (kind : StoreKind) : FileSystem.isStep kind.fileName = true := by
  cases kind <;> decide

end StoreKind

/-- The records in each file of a collection. -/
def Stores := (kind : StoreKind) → List kind.Record

namespace Stores

def empty : Stores := fun _ => []

/-- The lists with another one in the place of one of them. -/
def set (stores : Stores) (kind : StoreKind) (records : List kind.Record) : Stores :=
  Function.update stores kind records

@[simp] theorem set_self (stores : Stores) (kind : StoreKind) (records : List kind.Record) :
    stores.set kind records kind = records := Function.update_self ..

@[simp] theorem set_of_ne (stores : Stores) {kind other : StoreKind} (different : other ≠ kind)
    (records : List kind.Record) : stores.set kind records other = stores other :=
  Function.update_of_ne different ..

end Stores

/-!
## Files that hold records
-/

/-- The bytes of a file with some records. -/
def fileBytes (endian : Endian) (kind : StoreKind) (records : List kind.Record) : List UInt8 :=
  (StoreHeader.fresh kind endian).encode ++ records.flatMap (encode endian)

section

variable {kind : StoreKind} {records : List kind.Record}

theorem length_fileBytes (faithful : ∀ record ∈ records, Faithful record) (endian : Endian) :
    (fileBytes endian kind records).length = headerSize + records.length * size kind.Record := by
  have equal : ∀ record ∈ records, (encode endian record).length = size kind.Record :=
    fun record member => (faithful record member).length_encode endian
  rw [fileBytes, List.length_append, StoreHeader.length_encode, length_flatMap_of_forall equal]

/-- A record is written over where the one with its number stands. -/
theorem toList_overwrite_of_fileBytes {endian : Endian} {content : Content} {id : RecordId}
    {record : kind.Record} (written : content.toList = fileBytes endian kind records)
    (faithful : ∀ record ∈ records, Faithful record) (inside : id.toNat < records.length)
    (again : Faithful record) :
    (content.overwrite (RecordFile.offset kind.Record id) (encode endian record)).toList =
      fileBytes endian kind (records.set id.toNat record) := by
  have equal : ∀ record ∈ records, (encode endian record).length = size kind.Record :=
    fun record member => (faithful record member).length_encode endian
  have width := again.length_encode endian
  have start : RecordFile.offset kind.Record id =
      (StoreHeader.fresh kind endian).encode.length + id.toNat * size kind.Record := by
    rw [RecordFile.offset, StoreHeader.length_encode]
  have reach : RecordFile.offset kind.Record id ≤ (fileBytes endian kind records).length := by
    rw [length_fileBytes faithful, RecordFile.offset]
    have := Nat.mul_le_mul_right (size kind.Record) (Nat.le_of_lt inside)
    omega
  have finish : RecordFile.offset kind.Record id + (encode endian record).length =
      (StoreHeader.fresh kind endian).encode.length + (id.toNat + 1) * size kind.Record := by
    rw [width, start, Nat.succ_mul, Nat.add_assoc]
  rw [Content.toList_overwrite, written, Nat.sub_eq_zero_of_le reach, finish, start, fileBytes,
    List.take_length_add_append, List.drop_length_add_append, List.replicate_zero,
    List.append_nil, fileBytes, ← overwrite_flatMap_of_forall equal inside record,
    List.append_assoc, List.append_assoc, List.append_assoc]

end

/-- The directory of a collection, with the place to which its path leads and the byte order of its
files. -/
structure Site where
  collection : Collection
  place : Path
  endian : Endian

namespace Site

variable {site : Site}

def placeOf (site : Site) (kind : StoreKind) : Path := site.place ++ [kind.fileName]

theorem placeOf_injective {left right : StoreKind} (same : site.placeOf left = site.placeOf right) :
    left = right := by
  apply StoreKind.fileName_injective
  exact (List.cons.inj (List.append_cancel_left same)).1

/-- An open file of the collection. -/
def file (site : Site) (kind : StoreKind) : RecordFile kind.Record :=
  ⟨site.collection.pathOf kind, .fresh kind site.endian⟩

/-- Whether a file holds some records, each of which can be read back and has a number of its
own. -/
structure HoldsFile (site : Site) (kind : StoreKind) (records : List kind.Record)
    (system : FileSystem) : Prop where
  file : ∃ content, system.HasFile (site.collection.pathOf kind) (site.placeOf kind) content ∧
    content.toList = fileBytes site.endian kind records
  faithful : ∀ record ∈ records, Faithful record
  short : records.length < RecordFile.idLimit

/-- Whether the files hold some records. -/
def Holds (site : Site) (stores : Stores) (system : FileSystem) : Prop :=
  ∀ kind, site.HoldsFile kind (stores kind) system

/-- Whether two file systems differ in the files of the collection only. -/
def Beside (site : Site) (system later : FileSystem) : Prop :=
  ∀ other, (∀ kind, other ≠ site.placeOf kind) → later.entry? other = system.entry? other

theorem Beside.refl (site : Site) (system : FileSystem) : site.Beside system system :=
  fun _ _ => rfl

theorem Beside.trans {system later last : FileSystem} (first : site.Beside system later)
    (second : site.Beside later last) : site.Beside system last :=
  fun other outside => (second other outside).trans (first other outside)

/-- Where files are changed, the directories stay. -/
theorem Beside.keeps {stores : Stores} {system later : FileSystem}
    (beside : site.Beside system later) (held : site.Holds stores system) :
    system.Keeps later := by
  apply FileSystem.keeps_of_entry?
  intro place directory
  rw [beside place, directory]
  intro kind same
  subst same
  obtain ⟨content, file, -⟩ := (held kind).file
  rw [file.stands] at directory
  cases directory

/-!
## Single files
-/

theorem HoldsFile.length_encode {kind : StoreKind} {records : List kind.Record}
    {system : FileSystem} (held : site.HoldsFile kind records system) (endian : Endian) :
    ∀ record ∈ records, (encode endian record).length = size kind.Record :=
  fun record member => (held.faithful record member).length_encode endian

theorem HoldsFile.length_fileBytes {kind : StoreKind} {records : List kind.Record}
    {system : FileSystem} (held : site.HoldsFile kind records system) :
    (fileBytes site.endian kind records).length =
      headerSize + records.length * size kind.Record :=
  GraphStore.length_fileBytes held.faithful site.endian

theorem Holds.put {stores : Stores} {system : FileSystem} (held : site.Holds stores system)
    {kind : StoreKind} {records : List kind.Record} {content : Content}
    (written : content.toList = fileBytes site.endian kind records)
    (faithful : ∀ record ∈ records, Faithful record) (short : records.length < RecordFile.idLimit) :
    site.Holds (stores.set kind records) (system.put (site.placeOf kind) (.file content)) := by
  obtain ⟨former, formerFile, -⟩ := (held kind).file
  intro other
  by_cases same : other = kind
  · subst same
    rw [Stores.set_self]
    exact ⟨⟨content, formerFile.put_self content, written⟩, faithful, short⟩
  · rw [Stores.set_of_ne stores same]
    obtain ⟨⟨otherContent, otherFile, otherBytes⟩, otherFaithful, otherShort⟩ := held other
    have apart : site.placeOf other ≠ site.placeOf kind := fun equal =>
      same (placeOf_injective equal)
    exact ⟨⟨otherContent, otherFile.put_of_ne formerFile apart content, otherBytes⟩,
      otherFaithful, otherShort⟩

theorem Holds.kept {stores : Stores} {system later : FileSystem} (held : site.Holds stores system)
    (keeps : system.Keeps later)
    (same : ∀ kind, later.entry? (site.placeOf kind) = system.entry? (site.placeOf kind)) :
    site.Holds stores later := by
  intro kind
  obtain ⟨⟨content, file, bytes⟩, faithful, short⟩ := held kind
  have located := FileSystem.locate_of_keeps keeps file.located
  exact ⟨⟨content, ⟨located, (same kind).trans file.stands⟩, bytes⟩, faithful, short⟩

theorem beside_put (system : FileSystem) (kind : StoreKind) (entry : Entry) :
    site.Beside system (system.put (site.placeOf kind) entry) :=
  fun _ outside => FileSystem.entry?_put_of_ne system entry (outside kind)

end Site

end GraphStore
