import GraphStore.Proofs.Store.Slots
import GraphStore.Proofs.Store.Twins

/-!
# Record files in step

Operations on a record file on two file systems, on each of which the file may have another byte
order. Main statements: one lemma for each operation, which has the same outcome on both.
-/

set_option autoImplicit false

namespace GraphStore

open StoredRecord

/-!
## Records that can be written
-/

/-- Whether a record is written as one that can be read back. -/
def Writable {ρ : Type} [StoredRecord ρ] (record : ρ) : Prop :=
  ∃ held : ρ, Faithful held ∧ ∀ endian, encode endian held = encode endian record

theorem RecordKind.writable (kind : RecordKind) {record : kind.Record}
    (obtainable : kind.IsObtainable record) : Writable record :=
  ⟨kind.readBack record, kind.faithful_readBack obtainable, fun endian =>
    kind.encode_readBack endian record⟩

theorem NodeRecord.writable (record : NodeRecord) : Writable record :=
  RecordKind.writable .node ⟨.fresh none none, .inl ⟨none, none, rfl⟩, trivial⟩

theorem RelationshipRecord.writable (record : RelationshipRecord) : Writable record :=
  RecordKind.writable .relationship ⟨record, .inl trivial, trivial⟩

theorem PropertyRecord.writable (record : PropertyRecord) : Writable record :=
  RecordKind.writable .property
    ⟨_, .inl ⟨[], if_neg (Nat.not_lt_zero _)⟩, trivial⟩

theorem TextRecord.writable (record : TextRecord) : Writable record :=
  RecordKind.writable .text
    ⟨{ record with inUse := true, next := none }, .inl ⟨record.data, none, dif_pos record.data_le⟩,
      rfl⟩

theorem StoredRecord.Faithful.writable {ρ : Type} [StoredRecord ρ] {record : ρ}
    (faithful : Faithful record) : Writable record := ⟨record, faithful, fun _ => rfl⟩

theorem Writable.exists_flatMap {ρ : Type} [StoredRecord ρ] {records : List ρ}
    (writable : ∀ record ∈ records, Writable record) :
    ∃ held : List ρ, (∀ record ∈ held, Faithful record) ∧ ∀ endian,
      held.flatMap (encode endian) = records.flatMap (encode endian) := by
  induction records with
  | nil => exact ⟨[], by simp, fun _ => rfl⟩
  | cons record records ih =>
      obtain ⟨⟨first, faithful, same⟩, others⟩ := List.forall_mem_cons.mp writable
      obtain ⟨held, faithfulHeld, sameHeld⟩ := ih others
      refine ⟨first :: held, List.forall_mem_cons.mpr ⟨faithful, faithfulHeld⟩, fun endian => ?_⟩
      rw [List.flatMap_cons, List.flatMap_cons, same, sameHeld]

/-!
## Files with records
-/

section

variable {kind : StoreKind} {records : List kind.Record} {endian : Endian}
  (faithful : ∀ record ∈ records, Faithful record)
include faithful

theorem eq_length_of_countOf {path : Path} {held : Nat}
    (counted : RecordFile.countOf kind.Record path (fileBytes endian kind records).length =
      .ok held) : held = records.length := by
  rw [length_fileBytes faithful] at counted
  simp only [RecordFile.countOf, Nat.add_sub_cancel_left, Nat.mul_mod_left,
    Nat.mul_div_cancel _ kind.size_pos, ne_eq, not_true_eq_false, if_false] at counted
  split at counted
  · cases counted
  · exact (Except.ok.inj counted).symm

/-- The record with a number, or what comes of reading nothing behind the last one. -/
theorem decode_slice_fileBytes (id : RecordId) :
    decode endian (((fileBytes endian kind records).drop
        (RecordFile.offset kind.Record id)).take (size kind.Record)) =
      records[id.toNat]?.elim
        (.error (.malformedRecord (kindName kind.Record) (size kind.Record) 0)) .ok := by
  have equal : ∀ record ∈ records, (encode endian record).length = size kind.Record :=
    fun record member => (faithful record member).length_encode endian
  rw [fileBytes, RecordFile.offset, ← List.drop_drop, List.drop_left' (StoreHeader.length_encode _)]
  cases found : records[id.toNat]? with
  | some record =>
      rw [slice_flatMap_of_forall equal found]
      exact (faithful record (List.mem_of_getElem? found)).decode_encode endian
  | none =>
      have outside := List.getElem?_eq_none_iff.mp found
      have short : ([] : List UInt8).length ≠ size kind.Record := Nat.ne_of_lt kind.size_pos
      rw [drop_flatMap_of_forall equal, List.drop_eq_nil_of_le outside, List.flatMap_nil,
        List.take_nil, decode, if_neg short]
      rfl

theorem decode_slices_fileBytes :
    (slices (size kind.Record) records.length ((fileBytes endian kind records).drop headerSize)).mapM
      (decode endian) = (.ok records : Except Error (List kind.Record)) := by
  have equal : ∀ record ∈ records, (encode endian record).length = size kind.Record :=
    fun record member => (faithful record member).length_encode endian
  rw [fileBytes, List.drop_left' (StoreHeader.length_encode _), slices_flatMap_of_forall equal,
    List.mapM_map]
  refine (mapM_eq_ok fun record member => ?_).trans (congrArg Except.ok (List.map_id _))
  exact (faithful record member).decode_encode endian

end

/-!
## Open files
-/

variable {first second : Heading} {kind : StoreKind} {here there : RecordFile kind.Record}
  {left right : List UInt8}

/-- Whether a file was opened on both file systems, with the header that it has there. -/
structure Abreast (first second : Heading) (here there : RecordFile kind.Record) : Prop where
  path : there.path = here.path
  headings : ∃ place, place.getLast? = some kind.fileName ∧
    first here.path = .ok (place, here.header.encode) ∧
    second here.path = .ok (place, there.header.encode)

/-- Whether an open file holds the same bytes on both file systems, or the same records in the byte
orders in which it is open. -/
inductive Holding (here there : RecordFile kind.Record) : List UInt8 → List UInt8 → Prop where
  | same (equal : there.endian = here.endian) (bytes : List UInt8) : Holding here there bytes bytes
  | records {records : List kind.Record} (faithful : ∀ record ∈ records, Faithful record) :
      Holding here there (fileBytes here.endian kind records) (fileBytes there.endian kind records)

namespace Holding

theorem twins {place : Path} (isStore : place.getLast? = some kind.fileName)
    (holding : Holding here there left right) : Twins place left right := by
  cases holding with
  | same => exact .same _
  | records faithful => exact .store isStore _ _ faithful

theorem countOf_eq (holding : Holding here there left right) (path : Path) :
    RecordFile.countOf kind.Record path right.length =
      RecordFile.countOf kind.Record path left.length := by
  have length : left.length = right.length := by
    cases holding with
    | same => rfl
    | records faithful => rw [length_fileBytes faithful, length_fileBytes faithful]
  rw [length]

/-- The bytes at a number are read alike, whether a record with that number is there or not. -/
theorem decode_slice (holding : Holding here there left right) (id : RecordId) :
    (decode there.endian ((right.drop (RecordFile.offset kind.Record id)).take (size kind.Record)) :
        Except Error kind.Record) =
      decode here.endian ((left.drop (RecordFile.offset kind.Record id)).take (size kind.Record)) := by
  cases holding with
  | same equal => rw [equal]
  | records faithful => rw [decode_slice_fileBytes faithful, decode_slice_fileBytes faithful]

theorem decode_all (holding : Holding here there left right) {path : Path} {held : Nat}
    (counted : RecordFile.countOf kind.Record path left.length = .ok held) :
    ((slices (size kind.Record) held (right.drop headerSize)).mapM (decode there.endian) :
        Except Error (List kind.Record)) =
      (slices (size kind.Record) held (left.drop headerSize)).mapM (decode here.endian) := by
  cases holding with
  | same equal => rw [equal]
  | records faithful =>
      obtain rfl := eq_length_of_countOf faithful counted
      rw [decode_slices_fileBytes faithful, decode_slices_fileBytes faithful]

theorem append (holding : Holding here there left right) {records : List kind.Record}
    (writable : ∀ record ∈ records, Writable record) :
    Holding here there (left ++ records.flatMap (encode here.endian))
      (right ++ records.flatMap (encode there.endian)) := by
  cases holding with
  | same equal =>
      rw [equal]
      exact .same equal _
  | @records former faithful =>
      obtain ⟨held, faithfulHeld, same⟩ := Writable.exists_flatMap writable
      have longer (endian : Endian) : fileBytes endian kind former ++ records.flatMap (encode endian) =
          fileBytes endian kind (former ++ held) := by
        rw [fileBytes, fileBytes, List.flatMap_append, same, List.append_assoc]
      rw [longer, longer]
      exact .records (List.forall_mem_append.mpr ⟨faithful, faithfulHeld⟩)

theorem overwrite (holding : Holding here there left right) {path : Path} {held : Nat} {id : RecordId}
    (counted : RecordFile.countOf kind.Record path left.length = .ok held) (inside : id.toNat < held)
    {record : kind.Record} (writable : Writable record) {content other : Content}
    (stands : content.toList = left) (standsThere : other.toList = right) :
    Holding here there
      (content.overwrite (RecordFile.offset kind.Record id) (encode here.endian record)).toList
      (other.overwrite (RecordFile.offset kind.Record id) (encode there.endian record)).toList := by
  cases holding with
  | same equal =>
      rw [Content.toList_overwrite, Content.toList_overwrite, stands, standsThere, equal]
      exact .same equal _
  | @records records faithful =>
      obtain rfl := eq_length_of_countOf faithful counted
      obtain ⟨again, faithfulAgain, same⟩ := writable
      rw [← same, ← same, toList_overwrite_of_fileBytes stands faithful inside faithfulAgain,
        toList_overwrite_of_fileBytes standsThere faithful inside faithfulAgain]
      refine .records fun other member => ?_
      rcases List.mem_or_eq_of_mem_set member with former | rfl
      · exact faithful other former
      · exact faithfulAgain

end Holding

private theorem le_length_of_header {bytes : List UInt8} {header : StoreHeader}
    (begins : bytes.take headerSize = header.encode) : headerSize ≤ bytes.length := by
  have long := congrArg List.length begins
  rw [List.length_take, StoreHeader.length_encode] at long
  omega

theorem take_append_of_header {content : Content} {header : StoreHeader}
    (begins : content.toList.take headerSize = header.encode) (bytes : List UInt8) :
    (content.append bytes).toList.take headerSize = content.toList.take headerSize := by
  rw [Content.toList_append, List.take_append_of_le_length (le_length_of_header begins)]

theorem take_overwrite_of_header {content : Content} {header : StoreHeader} {offset : Nat}
    (begins : content.toList.take headerSize = header.encode) (behind : headerSize ≤ offset)
    (bytes : List UInt8) :
    (content.overwrite offset bytes).toList.take headerSize = content.toList.take headerSize := by
  have inside : headerSize ≤ (content.toList.take offset).length := by
    rw [List.length_take]
    exact Nat.le_min.mpr ⟨behind, le_length_of_header begins⟩
  rw [Content.toList_overwrite, List.append_assoc, List.append_assoc,
    List.take_append_of_le_length inside, List.take_take, Nat.min_eq_left behind]

/-- An open file stands at the same place on both file systems, where it holds the same. -/
theorem Abreast.exists_holding {system other : FileSystem}
    (abreast : Abreast first second here there)
    (aligned : FileSystem.Aligned first second system other) :
    ∃ place content changed, place.getLast? = some kind.fileName ∧
      system.HasFile here.path place content ∧ other.HasFile here.path place changed ∧
      Holding here there content.toList changed.toList ∧
      content.toList.take headerSize = here.header.encode ∧
      changed.toList.take headerSize = there.header.encode := by
  obtain ⟨place, isStore, heads, headsThere⟩ := abreast.headings
  rw [← aligned.first, FileSystem.heading] at heads
  rw [← aligned.second, FileSystem.heading] at headsThere
  obtain ⟨⟨place, content⟩, opened, same⟩ := exists_of_map_eq_ok heads
  obtain ⟨⟨_, changed⟩, openedThere, sameThere⟩ := exists_of_map_eq_ok headsThere
  have agree := aligned.matching.openFile here.path
  rw [opened, openedThere] at agree
  cases agree with
  | ok found =>
      obtain ⟨rfl, file, fileThere, twins⟩ := found
      obtain ⟨rfl, begins⟩ := Prod.mk.inj same
      obtain ⟨-, beginsThere⟩ := Prod.mk.inj sameThere
      dsimp only at twins begins beginsThere file fileThere isStore
      refine ⟨_, content, changed, isStore, file, fileThere, ?_, begins, beginsThere⟩
      generalize content.toList = left, changed.toList = right at twins begins beginsThere
      -- The headers in the files are those with which they are open, and so are the byte orders.
      cases twins with
      | same =>
          refine .same ?_ _
          exact congrArg StoreHeader.endian
            (StoreHeader.encode_injective (beginsThere.symm.trans begins))
      | store again firstEndian secondEndian faithful =>
          obtain rfl := StoreKind.fileName_injective (Option.some.inj (again.symm.trans isStore))
          rw [take_fileBytes] at begins beginsThere
          obtain rfl := congrArg StoreHeader.endian (StoreHeader.encode_injective begins)
          obtain rfl := congrArg StoreHeader.endian (StoreHeader.encode_injective beginsThere)
          exact .records faithful
      | dated noStore => exact absurd isStore (noStore kind)

/-!
## Questions
-/

/-- What stands at the beginning of a file on both file systems: the same bytes, or the headers of
new files. -/
inductive Heads (kind : StoreKind) : List UInt8 → List UInt8 → Prop where
  | same (bytes : List UInt8) : Heads kind bytes bytes
  | fresh (first second : Endian) :
      Heads kind (StoreHeader.fresh kind first).encode (StoreHeader.fresh kind second).encode

namespace Heads

theorem length_eq (heads : Heads kind left right) : left.length = right.length := by
  cases heads with
  | same => rfl
  | fresh => rw [StoreHeader.length_encode, StoreHeader.length_encode]

theorem of_twins {place : Path} (isStore : place.getLast? = some kind.fileName)
    (twins : Twins place left right) : Heads kind (left.take headerSize) (right.take headerSize) := by
  cases twins with
  | same => exact .same _
  | store again =>
      obtain rfl := StoreKind.fileName_injective (Option.some.inj (again.symm.trans isStore))
      rw [take_fileBytes, take_fileBytes]
      exact .fresh _ _
  | dated noStore => exact absurd isStore (noStore kind)

theorem decodeAs (heads : Heads kind left right) (path : String) :
    Agree (fun header other => header.encode = left ∧ other.encode = right)
      (StoreHeader.decodeAs kind path left) (StoreHeader.decodeAs kind path right) := by
  cases heads with
  | same =>
      cases decoded : StoreHeader.decodeAs kind path left with
      | error error => exact .error error
      | ok header =>
          obtain ⟨read, first, checked⟩ := exists_of_bind_eq_ok decoded
          obtain ⟨_, -, same⟩ := exists_of_bind_eq_ok checked
          cases same
          exact .ok ⟨StoreHeader.encode_of_decode first, StoreHeader.encode_of_decode first⟩
  | fresh first second =>
      rw [StoreHeader.decodeAs_fresh, StoreHeader.decodeAs_fresh]
      exact .ok ⟨rfl, rfl⟩

end Heads

namespace Abreast

open RecordFile

variable (abreast : Abreast first second here there)
include abreast

theorem count : Action.Parallel (FileSystem.Aligned first second) Eq here.count there.count := by
  have plain : Question.IsPlain (.size here.path) := trivial
  have asked : Disk.Parallel (FileSystem.Aligned first second) Eq (Disk.size here.path)
      (Disk.size here.path) :=
    .ask fun system other aligned => aligned.matching.answer Twins.isEven plain
  rw [RecordFile.count, RecordFile.count, abreast.path]
  exact (Action.Parallel.on_same asked).bind_same fun bytes => .of (.same _)

theorem checkId (id : RecordId) :
    Action.Parallel (FileSystem.Aligned first second) Eq (here.checkId id) (there.checkId id) := by
  refine abreast.count.bind_same fun held => ?_
  split
  next => exact .throw _
  next => exact .pure rfl

theorem read (id : RecordId) :
    Action.Parallel (FileSystem.Aligned first second) Eq (here.read id) (there.read id) := by
  have asked : Disk.Parallel (FileSystem.Aligned first second)
      (Agree fun left right => (decode there.endian right : Except Error kind.Record) =
        decode here.endian left)
      (Disk.slice here.path (offset kind.Record id) (size kind.Record))
      (Disk.slice here.path (offset kind.Record id) (size kind.Record)) := by
    refine .ask fun system other aligned => ?_
    obtain ⟨place, content, changed, -, file, fileThere, holding, -, -⟩ :=
      abreast.exists_holding aligned
    rw [Question.answer, Question.answer, file.openFile_eq, fileThere.openFile_eq]
    refine .ok ?_
    simp only [Content.slice_eq]
    exact holding.decode_slice id
  refine (abreast.checkId id).bind_same fun _ => ?_
  rw [abreast.path]
  refine (Action.Parallel.on asked).bind fun left right same => ?_
  rw [same]
  exact .of (.same _)

theorem readInUse (id : RecordId) :
    Action.Parallel (FileSystem.Aligned first second) Eq (here.readInUse id)
      (there.readInUse id) := by
  refine (abreast.read id).bind_same fun record => ?_
  split
  next => exact .pure rfl
  next => exact .throw _

theorem readAll :
    Action.Parallel (FileSystem.Aligned first second) Eq here.readAll there.readAll := by
  have asked : Disk.Parallel (FileSystem.Aligned first second) (Agree (Holding here there))
      (Disk.content here.path) (Disk.content here.path) := by
    refine .ask fun system other aligned => ?_
    obtain ⟨place, content, changed, -, file, fileThere, holding, -, -⟩ :=
      abreast.exists_holding aligned
    rw [Question.answer, FileSystem.content, file.openFile_eq, Question.answer, FileSystem.content,
      fileThere.openFile_eq]
    exact .ok holding
  rw [RecordFile.readAll, RecordFile.readAll, abreast.path]
  refine (Action.Parallel.on asked).bind fun left right holding => ?_
  rw [holding.countOf_eq]
  refine .of_bind _ fun held counted => ?_
  rw [holding.decode_all counted]
  exact .of (.same _)

/-!
## Changes
-/

theorem appendAll {records : List kind.Record} (writable : ∀ record ∈ records, Writable record) :
    Action.Parallel (FileSystem.Aligned first second) Eq (here.appendAll records)
      (there.appendAll records) := by
  have changed : Disk.Parallel (FileSystem.Aligned first second) Eq
      (Disk.change (.append here.path (records.flatMap (encode here.endian))))
      (Disk.change (.append here.path (records.flatMap (encode there.endian)))) := by
    refine .change fun system other aligned => ?_
    obtain ⟨place, content, changed, isStore, file, fileThere, holding, begins, beginsThere⟩ :=
      abreast.exists_holding aligned
    have longer := holding.append writable
    rw [file.change_append, fileThere.change_append]
    refine .ok (aligned.put file fileThere ?_ ?_ ?_)
    · rw [Content.toList_append, Content.toList_append]
      exact longer.twins isStore
    · exact take_append_of_header begins _
    · exact take_append_of_header beginsThere _
  rw [RecordFile.appendAll, RecordFile.appendAll, abreast.path]
  refine abreast.count.bind_same fun number => ?_
  dsimp only
  split
  next => exact .throw _
  next => exact (Action.Parallel.on_same changed).bind_same fun _ => .pure rfl

theorem append {record : kind.Record} (writable : Writable record) :
    Action.Parallel (FileSystem.Aligned first second) Eq (here.append record)
      (there.append record) :=
  abreast.appendAll fun _ member => List.mem_singleton.mp member ▸ writable

/-- What comes of a check whether a number is one of a record. -/
private def verdict (ρ : Type) [StoredRecord ρ] (path : Path) (bytes : Nat) (id : RecordId) :
    Except Error Unit := do
  let held ← countOf ρ path bytes
  if held ≤ id.toNat then .error (.notFound s!"{kindName ρ} record {id} (store holds {held})")
  else .ok ()

omit abreast in
private theorem runOn_checkId {opened : RecordFile kind.Record} {system : FileSystem} {place : Path}
    {content : Content} (file : system.HasFile opened.path place content) (id : RecordId) :
    (opened.checkId id).runOn system =
      (verdict kind.Record opened.path content.toList.length id, system) := by
  have counted : opened.count.runOn system =
      (countOf kind.Record opened.path content.toList.length, system) :=
    RecordFile.runOn_count file
  rw [verdict]
  cases held : countOf kind.Record opened.path content.toList.length with
  | error error =>
      rw [held] at counted
      exact Action.runOn_bind_of_error counted _
  | ok number =>
      rw [held] at counted
      refine (Action.runOn_bind_of_ok _ _ counted _).trans ?_
      simp only [bind, Except.bind]
      split
      next => rfl
      next => rfl

theorem writeAt (id : RecordId) {record : kind.Record} (writable : Writable record) :
    Action.Parallel (FileSystem.Aligned first second) Eq (here.writeAt id record)
      (there.writeAt id record) := by
  intro system other aligned
  obtain ⟨place, content, changed, isStore, file, fileThere, holding, begins, beginsThere⟩ :=
    abreast.exists_holding aligned
  rw [← abreast.path] at fileThere
  -- That the number is one of a record is known where the check has passed, and not behind it, so
  -- that both runs are followed up to the change.
  have checked := runOn_checkId file id
  have checkedThere := runOn_checkId fileThere id
  rw [verdict, abreast.path, holding.countOf_eq, ← verdict] at checkedThere
  change Agree Eq ((here.writeAt id record).runOn system).1 ((there.writeAt id record).runOn other).1 ∧
    FileSystem.Aligned first second ((here.writeAt id record).runOn system).2
      ((there.writeAt id record).runOn other).2
  cases judged : verdict kind.Record here.path content.toList.length id with
  | error error =>
      rw [judged] at checked checkedThere
      rw [RecordFile.writeAt, RecordFile.writeAt, Action.runOn_bind_of_error checked,
        Action.runOn_bind_of_error checkedThere]
      exact ⟨.error error, aligned⟩
  | ok =>
      obtain ⟨held, counted, within⟩ := exists_of_bind_eq_ok judged
      rw [judged] at checked checkedThere
      rw [RecordFile.writeAt, RecordFile.writeAt, Action.runOn_bind_of_ok _ _ checked,
        Action.runOn_bind_of_ok _ _ checkedThere,
        Action.runOn_on (Disk.run_change (file.change_overwrite _ _)),
        Action.runOn_on (Disk.run_change (fileThere.change_overwrite _ _))]
      split at within
      next => cases within
      next inside =>
        have rewritten := holding.overwrite counted (Nat.lt_of_not_le inside) writable rfl rfl
        have behind : headerSize ≤ offset kind.Record id := Nat.le_add_right _ _
        refine ⟨.ok rfl, aligned.put file (abreast.path ▸ fileThere) (rewritten.twins isStore) ?_ ?_⟩
        · exact take_overwrite_of_header begins behind _
        · exact take_overwrite_of_header beginsThere behind _

end Abreast

/-!
## Opening
-/

theorem RecordFile.parallel_openAs (kind : StoreKind) (directory : Path) :
    Action.Parallel (FileSystem.Aligned first second) (Abreast first second)
      (openAs kind.Record kind (directory.child kind.fileName))
      (openAs kind.Record kind (directory.child kind.fileName)) := by
  have asked : Disk.Parallel (FileSystem.Aligned first second)
      (Agree fun left right => Heads kind left right ∧ ∃ place,
        place.getLast? = some kind.fileName ∧
        first (directory.child kind.fileName) = .ok (place, left) ∧
        second (directory.child kind.fileName) = .ok (place, right))
      (Disk.slice (directory.child kind.fileName) 0 headerSize)
      (Disk.slice (directory.child kind.fileName) 0 headerSize) := by
    refine .ask fun system other aligned => ?_
    refine (aligned.matching.openFile _).map ?_
    rintro ⟨place, content⟩ ⟨_, changed⟩ ⟨rfl, file, fileThere, twins⟩
    have isStore := FileSystem.getLast?_of_child file.located kind.isStep_fileName
    simp only [Content.slice_eq, List.drop_zero]
    refine ⟨.of_twins isStore twins, place, isStore, ?_, ?_⟩
    · rw [← aligned.first, file.heading_eq]
    · rw [← aligned.second, fileThere.heading_eq]
  unfold openAs
  simp only [kind.recordSize_eq, ne_eq, not_true_eq_false, ↓reduceIte]
  refine (Action.Parallel.on asked).bind fun left right ⟨heads, place, isStore, here, there⟩ => ?_
  rw [heads.length_eq]
  split
  next => exact .throw _
  next =>
    refine (Action.Parallel.of (heads.decodeAs _)).bind fun header other written => ?_
    obtain ⟨rfl, rfl⟩ := written
    have abreast : Abreast first second (⟨_, header⟩ : RecordFile kind.Record) ⟨_, other⟩ :=
      ⟨rfl, place, isStore, here, there⟩
    exact abreast.count.bind_same fun _ => .pure abreast

end GraphStore
