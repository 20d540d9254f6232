import GraphStore.Proofs.Record.Kinds
import GraphStore.Proofs.Store.InStep
import GraphStore.Proofs.Store.Slots

/-!
# Record files as lists of records

Sequences of calls on a record file that was just made, with re-openings between them. Main
statement: the file answers as a list of records that begins empty, its bytes are those of the list,
and a call leaves the bytes of the records that it does not write over as they were.
-/

set_option autoImplicit false

namespace GraphStore

open StoredRecord

/-!
## Records of a file
-/

namespace StoreKind

/-- Whether a record for a file of some kind can be come by. -/
def IsObtainable : (kind : StoreKind) → kind.Record → Prop
  | .node => RecordKind.IsObtainable .node
  | .nodeId => RecordKind.IsObtainable .nodeId
  | .relationship => RecordKind.IsObtainable .relationship
  | .label => RecordKind.IsObtainable .label
  | .property => RecordKind.IsObtainable .property
  | .string => RecordKind.IsObtainable .text
  | .array => RecordKind.IsObtainable .text
  | .index => RecordKind.IsObtainable .key

/-- The record that is read back: a pointer at the number that stands for none is none. -/
def readBack : (kind : StoreKind) → kind.Record → kind.Record
  | .node => RecordKind.readBack .node
  | .nodeId => RecordKind.readBack .nodeId
  | .relationship => RecordKind.readBack .relationship
  | .label => RecordKind.readBack .label
  | .property => RecordKind.readBack .property
  | .string => RecordKind.readBack .text
  | .array => RecordKind.readBack .text
  | .index => RecordKind.readBack .key

theorem faithful_readBack (kind : StoreKind) {record : kind.Record}
    (obtainable : kind.IsObtainable record) : Faithful (kind.readBack record) := by
  cases kind with
  | node => exact RecordKind.faithful_readBack .node obtainable
  | nodeId => exact RecordKind.faithful_readBack .nodeId obtainable
  | relationship => exact RecordKind.faithful_readBack .relationship obtainable
  | label => exact RecordKind.faithful_readBack .label obtainable
  | property => exact RecordKind.faithful_readBack .property obtainable
  | string => exact RecordKind.faithful_readBack .text obtainable
  | array => exact RecordKind.faithful_readBack .text obtainable
  | index => exact RecordKind.faithful_readBack .key obtainable

theorem encode_readBack (kind : StoreKind) (endian : Endian) (record : kind.Record) :
    encode endian (kind.readBack record) = encode endian record := by
  cases kind with
  | node => exact RecordKind.encode_readBack .node endian record
  | nodeId => exact RecordKind.encode_readBack .nodeId endian record
  | relationship => exact RecordKind.encode_readBack .relationship endian record
  | label => exact RecordKind.encode_readBack .label endian record
  | property => exact RecordKind.encode_readBack .property endian record
  | string => exact RecordKind.encode_readBack .text endian record
  | array => exact RecordKind.encode_readBack .text endian record
  | index => exact RecordKind.encode_readBack .key endian record

/-- A record that can be come by. -/
abbrev Obtainable (kind : StoreKind) := { record : kind.Record // kind.IsObtainable record }

end StoreKind

/-!
## Calls
-/

/-- A call on an open record file, or the opening of it again. -/
inductive FileCall (kind : StoreKind) where
  | reopen
  | length
  | append (record : kind.Obtainable)
  | appendAll (records : List kind.Obtainable)
  | writeAt (id : RecordId) (record : kind.Obtainable)
  | read (id : RecordId)
  | readInUse (id : RecordId)
  | readAll

/-- What a call gives. -/
inductive FileReply (kind : StoreKind) where
  | done
  | length (count : Nat)
  | number (id : RecordId)
  | record (record : kind.Record)
  | records (records : List kind.Record)

namespace FileCall

variable {kind : StoreKind}

/-- The work of a call. Gives the file as it is open behind the call too. -/
def work (file : RecordFile kind.Record) :
    FileCall kind → Action (RecordFile kind.Record × FileReply kind)
  | .reopen => do return (← RecordFile.openAs kind.Record kind file.path, .done)
  | .length => do return (file, .length (← file.count))
  | .append record => do return (file, .number (← file.append record.val))
  | .appendAll records => do return (file, .number (← file.appendAll (records.map Subtype.val)))
  | .writeAt id record => do
      file.writeAt id record.val
      return (file, .done)
  | .read id => do return (file, .record (← file.read id))
  | .readInUse id => do return (file, .record (← file.readInUse id))
  | .readAll => do return (file, .records (← file.readAll))

/-- Whether a call writes over the record with a number. -/
def Rewrites (id : RecordId) : FileCall kind → Prop
  | .writeAt written _ => written = id
  | _ => False

/-- Whether the bytes behind a call on a file with some number of records have the header, and the
records that the call does not write over, as they were. -/
def Spares (call : FileCall kind) (count : Nat) (before after : List UInt8) : Prop :=
  after.take headerSize = before.take headerSize ∧
    ∀ id : RecordId, id.toNat < count → ¬call.Rewrites id →
      RecordFile.slot kind.Record after id = RecordFile.slot kind.Record before id

end FileCall

/-- An open record file and the file system on which it is. -/
structure FileState (kind : StoreKind) where
  file : RecordFile kind.Record
  system : FileSystem

namespace FileState

variable {kind : StoreKind}

/-- Carries out a call. A file that cannot be opened again stays as it is open. -/
def step (state : FileState kind) (call : FileCall kind) :
    Except Error (FileReply kind) × FileState kind :=
  match (call.work state.file).runOn state.system with
  | (.ok (file, reply), system) => (.ok reply, ⟨file, system⟩)
  | (.error error, system) => (.error error, { state with system })

/-- Carries out calls one after another. -/
def run (state : FileState kind) :
    List (FileCall kind) → List (Except Error (FileReply kind)) × FileState kind
  | [] => ([], state)
  | call :: rest =>
      let first := state.step call
      let onward := first.2.run rest
      (first.1 :: onward.1, onward.2)

end FileState

/-!
## The same calls on a list
-/

namespace RecordList

variable {kind : StoreKind}

/-- The element with a number. -/
def lookup (records : List kind.Record) (id : RecordId) : Except Error kind.Record :=
  match records[id.toNat]? with
  | some record => .ok record
  | none => .error (RecordFile.missing kind.Record records.length id)

def lookupInUse (records : List kind.Record) (id : RecordId) : Except Error kind.Record := do
  let record ← lookup records id
  if inUse record then .ok record else .error (RecordFile.free kind.Record id)

/-- Adds elements at the end and gives the former length, as long as it leaves numbers for them. -/
def addAll (records : List kind.Record) (more : List kind.Obtainable) :
    Except Error (FileReply kind) × List kind.Record :=
  let last := records.length + more.length
  if RecordFile.idLimit ≤ last then
    (.error (.payloadTooLarge "record id" (RecordFile.idLimit - 1) last), records)
  else
    (.ok (.number (UInt32.ofNat records.length)),
      records ++ more.map fun record => kind.readBack record.val)

/-- What a call gives and leaves on a list. -/
def step (records : List kind.Record) :
    FileCall kind → Except Error (FileReply kind) × List kind.Record
  | .reopen => (.ok .done, records)
  | .length => (.ok (.length records.length), records)
  | .append record => addAll records [record]
  | .appendAll more => addAll records more
  | .writeAt id record =>
      if records.length ≤ id.toNat then
        (.error (RecordFile.missing kind.Record records.length id), records)
      else (.ok .done, records.set id.toNat (kind.readBack record.val))
  | .read id => ((lookup records id).map .record, records)
  | .readInUse id => ((lookupInUse records id).map .record, records)
  | .readAll => (.ok (.records records), records)

def run (records : List kind.Record) :
    List (FileCall kind) → List (Except Error (FileReply kind)) × List kind.Record
  | [] => ([], records)
  | call :: rest =>
      let first := step records call
      let onward := run first.2 rest
      (first.1 :: onward.1, onward.2)

/-- A call leaves the elements that it does not write over where they were. -/
theorem getElem?_step {records : List kind.Record} {call : FileCall kind} {id : RecordId}
    (inside : id.toNat < records.length) (spared : ¬call.Rewrites id) :
    (step records call).2[id.toNat]? = records[id.toNat]? := by
  have added (more : List kind.Obtainable) :
      (addAll records more).2[id.toNat]? = records[id.toNat]? := by
    unfold addAll
    dsimp only
    split
    · rfl
    · exact List.getElem?_append_left inside
  cases call with
  | append record => exact added [record]
  | appendAll more => exact added more
  | writeAt written record =>
      have other : written.toNat ≠ id.toNat := fun same => spared (UInt32.toNat.inj same)
      simp only [step]
      split
      · rfl
      · exact List.getElem?_set_ne other
  | reopen | length | read | readInUse | readAll => rfl

end RecordList

/-!
## Files with the bytes of a list
-/

namespace FileState

open RecordFile

variable {kind : StoreKind} {endian : Endian} {path place : Path} {origin : FileSystem}
  {records : List kind.Record} {state : FileState kind} {call : FileCall kind}

/-- Whether an open file has the bytes of some records, while all else is as it was on another file
system. -/
structure Mirrors (endian : Endian) (path place : Path) (origin : FileSystem)
    (records : List kind.Record) (state : FileState kind) : Prop where
  file : state.file = ⟨path, .fresh kind endian⟩
  stands : ∃ content, state.system.HasFile path place content ∧
    content.toList = fileBytes endian kind records
  faithful : ∀ record ∈ records, Faithful record
  short : records.length < idLimit
  beside : ∀ other, other ≠ place → state.system.entry? other = origin.entry? other

namespace Mirrors

theorem exists_counted (mirrors : state.Mirrors endian path place origin records) :
    ∃ content, state.system.HasFile state.file.path place content ∧
      content.toList = fileBytes endian kind records ∧
      countOf kind.Record state.file.path content.toList.length = .ok records.length := by
  obtain ⟨content, stands, written⟩ := mirrors.stands
  have few : records.length < 0x100000000 := Nat.lt_trans mirrors.short (by decide)
  refine ⟨content, by rw [mirrors.file]; exact stands, written, ?_⟩
  rw [written, length_fileBytes mirrors.faithful]
  exact (countOf_eq_ok_iff _ kind.size_pos (Nat.le_add_right _ _)).mpr ⟨rfl, few⟩

theorem endian_eq (mirrors : state.Mirrors endian path place origin records) :
    state.file.endian = endian := by
  rw [mirrors.file]
  rfl

/-!
### Questions
-/

theorem runOn_openAs (mirrors : state.Mirrors endian path place origin records) :
    (openAs kind.Record kind state.file.path).runOn state.system =
      (.ok state.file, state.system) := by
  obtain ⟨content, stands, written, counted⟩ := mirrors.exists_counted
  have decoded : StoreHeader.decodeAs kind state.file.path.text (content.toList.take headerSize) =
      .ok (.fresh kind endian) := by
    rw [written, fileBytes, List.take_left' (StoreHeader.length_encode _)]
    exact StoreHeader.decodeAs_fresh kind endian _
  have long : headerSize ≤ content.toList.length := by
    rw [written, length_fileBytes mirrors.faithful]
    exact Nat.le_add_right _ _
  rw [RecordFile.runOn_openAs kind.recordSize_eq stands decoded long counted, mirrors.file]

theorem runOn_count (mirrors : state.Mirrors endian path place origin records) :
    state.file.count.runOn state.system = (.ok records.length, state.system) := by
  obtain ⟨content, stands, -, counted⟩ := mirrors.exists_counted
  exact runOn_count_of_counted stands counted

theorem runOn_read (mirrors : state.Mirrors endian path place origin records) (id : RecordId) :
    (state.file.read id).runOn state.system = (RecordList.lookup records id, state.system) := by
  obtain ⟨content, stands, written, counted⟩ := mirrors.exists_counted
  unfold RecordList.lookup
  cases found : records[id.toNat]? with
  | some record =>
      obtain ⟨inside, -⟩ := List.getElem?_eq_some_iff.mp found
      rw [runOn_read_of_lt stands counted inside, written, mirrors.endian_eq,
        slot_fileBytes mirrors.faithful endian found,
        (mirrors.faithful record (List.mem_of_getElem? found)).decode_encode endian]
  | none => exact runOn_read_of_le stands counted (List.getElem?_eq_none_iff.mp found)

theorem runOn_readInUse (mirrors : state.Mirrors endian path place origin records)
    (id : RecordId) :
    (state.file.readInUse id).runOn state.system =
      (RecordList.lookupInUse records id, state.system) := by
  have read := mirrors.runOn_read id
  unfold RecordList.lookupInUse
  cases found : RecordList.lookup records id with
  | ok record =>
      rw [found] at read
      exact runOn_readInUse_of_ok read
  | error error =>
      rw [found] at read
      exact runOn_readInUse_of_error read

theorem runOn_readAll (mirrors : state.Mirrors endian path place origin records) :
    state.file.readAll.runOn state.system = (.ok records, state.system) := by
  obtain ⟨content, stands, written, counted⟩ := mirrors.exists_counted
  rw [RecordFile.runOn_readAll stands counted, written, mirrors.endian_eq,
    decode_slices_fileBytes mirrors.faithful]

/-!
### Changes
-/

theorem put (mirrors : state.Mirrors endian path place origin records) {content : Content}
    {later : List kind.Record} (written : content.toList = fileBytes endian kind later)
    (faithful : ∀ record ∈ later, Faithful record) (short : later.length < idLimit) :
    Mirrors endian path place origin later
      { state with system := state.system.put place (.file content) } := by
  obtain ⟨former, stands, -⟩ := mirrors.stands
  refine ⟨mirrors.file, ⟨content, stands.put_self content, written⟩, faithful, short, ?_⟩
  intro other different
  exact (FileSystem.entry?_put_of_ne _ _ different).trans (mirrors.beside other different)

/-- Whether the work of a call gives what the list gives and leaves what the list leaves, without a
change if it fails. -/
def Follows (endian : Endian) (path place : Path) (origin : FileSystem)
    (records : List kind.Record) (state : FileState kind) (call : FileCall kind) : Prop :=
  ∃ later,
    (call.work state.file).runOn state.system =
      ((RecordList.step records call).1.map (Prod.mk state.file), later) ∧
    Mirrors endian path place origin (RecordList.step records call).2
      { state with system := later } ∧
    ∀ error, (RecordList.step records call).1 = .error error → later = state.system

theorem follows_question (mirrors : state.Mirrors endian path place origin records)
    (same : (RecordList.step records call).2 = records)
    (ran : (call.work state.file).runOn state.system =
      ((RecordList.step records call).1.map (Prod.mk state.file), state.system)) :
    Follows endian path place origin records state call :=
  ⟨state.system, ran, by rw [same]; exact mirrors, fun _ _ => rfl⟩

theorem follows_appendAll (mirrors : state.Mirrors endian path place origin records)
    (more : List kind.Obtainable) :
    Follows endian path place origin records state (.appendAll more) := by
  obtain ⟨content, stands, written, counted⟩ := mirrors.exists_counted
  have count : (more.map Subtype.val).length = more.length := List.length_map _
  simp only [Follows, RecordList.step, RecordList.addAll, FileCall.work]
  split
  next crowded =>
    rw [← count] at crowded
    refine ⟨state.system, ?_, mirrors, fun _ _ => rfl⟩
    rw [Action.runOn_map, runOn_appendAll_of_le stands counted crowded, count]
    rfl
  next open_ =>
    have room := Nat.lt_of_not_le open_
    have faithful : ∀ record ∈ more.map fun record => kind.readBack record.val,
        Faithful record := by
      intro record member
      obtain ⟨given, -, rfl⟩ := List.mem_map.mp member
      exact kind.faithful_readBack given.property
    have spelled : (more.map Subtype.val).flatMap (encode endian) =
        (more.map fun record => kind.readBack record.val).flatMap (encode endian) := by
      simp only [List.flatMap_map, kind.encode_readBack]
    have longer :
        (content.append ((more.map Subtype.val).flatMap (encode state.file.endian))).toList =
          fileBytes endian kind (records ++ more.map fun record => kind.readBack record.val) := by
      rw [Content.toList_append, written, mirrors.endian_eq, spelled, fileBytes, fileBytes,
        List.flatMap_append, List.append_assoc]
    rw [← count] at room
    refine ⟨_, ?_, mirrors.put longer ?_ ?_, fun _ failed => ?_⟩
    · rw [Action.runOn_map, runOn_appendAll_of_lt stands counted room]
      rfl
    · intro record member
      exact (List.mem_append.mp member).elim (mirrors.faithful record) (faithful record)
    · rw [List.length_append, List.length_map]
      rwa [count] at room
    · cases failed

theorem follows_writeAt (mirrors : state.Mirrors endian path place origin records)
    (id : RecordId) (record : kind.Obtainable) :
    Follows endian path place origin records state (.writeAt id record) := by
  obtain ⟨content, stands, written, counted⟩ := mirrors.exists_counted
  simp only [Follows, RecordList.step, FileCall.work]
  split
  next outside =>
    refine ⟨state.system, ?_, mirrors, fun _ _ => rfl⟩
    rw [Action.runOn_bind_of_error (runOn_writeAt_of_le stands counted outside record.val)]
    rfl
  next open_ =>
    have inside := Nat.lt_of_not_le open_
    have again := kind.faithful_readBack record.property
    have rewritten :
        (content.overwrite (offset kind.Record id) (encode state.file.endian record.val)).toList =
          fileBytes endian kind (records.set id.toNat (kind.readBack record.val)) := by
      rw [mirrors.endian_eq, ← kind.encode_readBack]
      exact toList_overwrite_of_fileBytes written mirrors.faithful inside again
    refine ⟨_, ?_, mirrors.put rewritten ?_ ?_, nofun⟩
    · rw [Action.runOn_bind_of_ok () _ (runOn_writeAt_of_lt stands counted inside record.val)]
      rfl
    · intro other member
      rcases List.mem_or_eq_of_mem_set member with former | same
      · exact mirrors.faithful other former
      · exact same ▸ again
    · rw [List.length_set]
      exact mirrors.short

theorem follows (mirrors : state.Mirrors endian path place origin records)
    (call : FileCall kind) : Follows endian path place origin records state call := by
  cases call with
  | reopen =>
      refine mirrors.follows_question rfl ?_
      rw [FileCall.work, Action.runOn_map, mirrors.runOn_openAs]
      rfl
  | length =>
      refine mirrors.follows_question rfl ?_
      rw [FileCall.work, Action.runOn_map, mirrors.runOn_count]
      rfl
  | append record => exact mirrors.follows_appendAll [record]
  | appendAll more => exact mirrors.follows_appendAll more
  | writeAt id record => exact mirrors.follows_writeAt id record
  | read id =>
      refine mirrors.follows_question rfl ?_
      rw [FileCall.work, Action.runOn_map, mirrors.runOn_read, RecordList.step]
      cases RecordList.lookup records id <;> rfl
  | readInUse id =>
      refine mirrors.follows_question rfl ?_
      rw [FileCall.work, Action.runOn_map, mirrors.runOn_readInUse, RecordList.step]
      cases RecordList.lookupInUse records id <;> rfl
  | readAll =>
      refine mirrors.follows_question rfl ?_
      rw [FileCall.work, Action.runOn_map, mirrors.runOn_readAll]
      rfl

end Mirrors

/-!
### Runs
-/

theorem step_eq {outcome : Except Error (FileReply kind)} {later : FileSystem}
    (ran : (call.work state.file).runOn state.system =
      (outcome.map (Prod.mk state.file), later)) :
    state.step call = (outcome, { state with system := later }) := by
  unfold step
  rw [ran]
  cases outcome <;> rfl

/-- A call gives on a file what it gives on the list, and leaves the bytes of what it leaves
there. -/
theorem Mirrors.step (mirrors : state.Mirrors endian path place origin records)
    (call : FileCall kind) :
    (state.step call).1 = (RecordList.step records call).1 ∧
      (state.step call).2.Mirrors endian path place origin (RecordList.step records call).2 := by
  obtain ⟨later, ran, left, -⟩ := mirrors.follows call
  rw [step_eq ran]
  exact ⟨rfl, left⟩

/-- A call that fails leaves the file system and the open file as they were. -/
theorem Mirrors.step_of_error (mirrors : state.Mirrors endian path place origin records)
    {error : Error} (failed : (state.step call).1 = .error error) :
    (state.step call).2 = state := by
  obtain ⟨later, ran, -, unchanged⟩ := mirrors.follows call
  rw [step_eq ran] at failed ⊢
  rw [unchanged error failed]

theorem Mirrors.run (mirrors : state.Mirrors endian path place origin records)
    (calls : List (FileCall kind)) :
    (state.run calls).1 = (RecordList.run records calls).1 ∧
      (state.run calls).2.Mirrors endian path place origin (RecordList.run records calls).2 := by
  induction calls generalizing state records with
  | nil => exact ⟨rfl, mirrors⟩
  | cons call rest ih =>
      obtain ⟨here, left⟩ := mirrors.step call
      obtain ⟨others, last⟩ := ih left
      exact ⟨by rw [FileState.run, RecordList.run, here, others], last⟩

/-- A file that was made has the bytes of the empty list. -/
theorem exists_mirrors_of_createFile {system made : FileSystem}
    (created : (kind.createFile path endian).runOn system = (.ok (), made)) :
    ∃ place, (⟨⟨path, .fresh kind endian⟩, made⟩ : FileState kind).Mirrors endian path place
      system [] := by
  obtain ⟨_, empty, first, second⟩ := Action.exists_of_runOn_bind created
  obtain ⟨place, located, vacant, rfl⟩ :=
    FileSystem.put_of_change_makeFile (Disk.change_of_run (Action.run_of_runOn_on first))
  obtain ⟨again, content, file, rfl⟩ :=
    FileSystem.put_of_change_append (Disk.change_of_run (Action.run_of_runOn_on second))
  have new := FileSystem.hasFile_put located (by rw [vacant]; nofun) .empty
  obtain rfl := Except.ok.inj (file.located.symm.trans new.located)
  obtain rfl := Entry.file.inj (Option.some.inj (file.stands.symm.trans new.stands))
  refine ⟨again, rfl, ⟨_, file.put_self _, ?_⟩, nofun, (by decide : 0 < idLimit), ?_⟩
  · rw [Content.toList_append, Content.toList_empty, fileBytes, List.flatMap_nil, List.append_nil,
      List.nil_append]
  · intro other different
    dsimp only
    rw [FileSystem.entry?_put_of_ne _ _ different, FileSystem.entry?_put_of_ne _ _ different]

theorem Mirrors.length_eq (mirrors : state.Mirrors endian path place origin records)
    {content : Content} (written : content.toList = fileBytes endian kind records) :
    content.toList.length = headerSize + records.length * kind.recordSize := by
  rw [written, length_fileBytes mirrors.faithful, kind.recordSize_eq]

/-- A call leaves the bytes of what it does not write over. -/
theorem Mirrors.spares (mirrors : state.Mirrors endian path place origin records)
    (call : FileCall kind) :
    call.Spares records.length (fileBytes endian kind records)
      (fileBytes endian kind (RecordList.step records call).2) := by
  refine ⟨?_, fun id inside spared => ?_⟩
  · rw [fileBytes, fileBytes, List.take_left' (StoreHeader.length_encode _),
      List.take_left' (StoreHeader.length_encode _)]
  · have found := List.getElem?_eq_getElem inside
    have kept := (RecordList.getElem?_step inside spared).trans found
    rw [slot_fileBytes mirrors.faithful endian found,
      slot_fileBytes (mirrors.step call).2.faithful endian kept]

/-- A record file that was made is a list of records that begins empty: whatever calls come one
after another, each gives what it gives on the list, and the bytes are the header with the records of
the list behind it. A call leaves the header and the records that it does not write over, and one
that fails leaves everything. -/
theorem run_behaves_as_list {system made : FileSystem}
    (created : (kind.createFile path endian).runOn system = (.ok (), made)) :
    ∃ (place : Path) (file : RecordFile kind.Record),
      file.endian = endian ∧
      (openAs kind.Record kind path).runOn made = (.ok file, made) ∧
      ∀ (calls : List (FileCall kind)) (call : FileCall kind),
        let first : FileState kind := ⟨file, made⟩
        let state := (first.run calls).2
        let records := (RecordList.run [] calls).2
        (first.run calls).1 = (RecordList.run [] calls).1 ∧
        records.length < idLimit ∧
        (∀ other, other ≠ place → state.system.entry? other = system.entry? other) ∧
        (∀ error, (state.step call).1 = .error error → (state.step call).2 = state) ∧
        ∃ before after : Content,
          state.system.HasFile path place before ∧
          before.toList = fileBytes endian kind records ∧
          before.toList.length = headerSize + records.length * kind.recordSize ∧
          (state.step call).2.system.HasFile path place after ∧
          call.Spares records.length before.toList after.toList := by
  obtain ⟨place, empty⟩ := exists_mirrors_of_createFile created
  refine ⟨place, ⟨path, .fresh kind endian⟩, rfl, empty.runOn_openAs, fun calls call => ?_⟩
  obtain ⟨replies, mirrors⟩ := empty.run calls
  obtain ⟨before, stands, written⟩ := mirrors.stands
  obtain ⟨after, standsAfter, writtenAfter⟩ := (mirrors.step call).2.stands
  refine ⟨replies, mirrors.short, mirrors.beside, fun error => mirrors.step_of_error, before, after,
    stands, written, mirrors.length_eq written, standsAfter, ?_⟩
  rw [written, writtenAfter]
  exact mirrors.spares call

/-- A node record that points at the number that stands for none. -/
private def loosePointer : StoreKind.node.Obtainable :=
  ⟨.fresh (some absentId) none, .fresh (some absentId) none, .inl ⟨_, _, rfl⟩, trivial⟩

private def freshNode : StoreKind.node.Obtainable :=
  ⟨.fresh none none, .fresh none none, .inl ⟨_, _, rfl⟩, trivial⟩

theorem run_nodeFile_behaves_as_list :
    ∃ (made : FileSystem) (file : RecordFile NodeRecord),
      (StoreKind.node.createFile ["n"] .big).runOn (.ofDirectory []) = (.ok (), made) ∧
      (openAs NodeRecord .node ["n"]).runOn made = (.ok file, made) ∧
      ((⟨file, made⟩ : FileState .node).run
        [.appendAll [freshNode, freshNode], .writeAt 1 loosePointer, .reopen, .read 1, .read 2,
          .length]).1 =
        [.ok (.number 0), .ok .done, .ok .done, .ok (.record (.fresh none none)),
          .error (.notFound "node record 2 (store holds 2)"), .ok (.length 2)] := by
  have created : (StoreKind.node.createFile ["n"] .big).runOn (.ofDirectory []) =
      (.ok (), ((StoreKind.node.createFile ["n"] .big).runOn (.ofDirectory [])).2) :=
    Prod.ext (eq_ok_of_toOption (by decide +kernel)) rfl
  obtain ⟨place, file, -, opened, behaves⟩ := run_behaves_as_list created
  refine ⟨_, file, created, opened, ?_⟩
  obtain ⟨replies, -⟩ := behaves [.appendAll [freshNode, freshNode], .writeAt 1 loosePointer,
    .reopen, .read 1, .read 2, .length] .length
  rw [replies]
  rfl

end FileState

end GraphStore
