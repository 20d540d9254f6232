import GraphStore.Collection.Properties
import GraphStore.Proofs.Collection.Making
import GraphStore.Proofs.Disk.Runs
import GraphStore.Proofs.Store.Site
import GraphStore.Proofs.Store.Slots

/-!
# Files that can be opened

What is known of a file that can be opened, whatever its records are: its header fits its kind, and
behind it stands a whole number of records. Main statements: opening and counting change nothing,
and where all files can be opened, records are added without a failure as long as there are numbers
for them.
-/

set_option autoImplicit false

namespace GraphStore

open StoredRecord

variable {α β : Type}

/-!
## Actions without a change
-/

namespace Action

/-- Whether an action attempts no change, on any file system. -/
def Asks (action : Action α) : Prop := ∀ system, (action.trace system).2 = []

theorem asks_pure (value : α) : Asks (pure value : Action α) := fun _ => rfl

theorem asks_throw (error : Error) : Asks (throw error : Action α) := fun _ => rfl

theorem asks_of (result : Except Error α) : Asks (.of result) := fun _ => rfl

theorem asks_on (path : Path) {work : Disk (Except OsError α)}
    (none : ∀ system, (work.trace system).2 = []) : Asks (.on path work) := by
  intro system
  rw [trace_on]
  exact none system

variable {action : Action α} {next : α → Action β} {system last : FileSystem} {error : Error}

theorem Asks.bind (first : action.Asks) (rest : ∀ value, (next value).Asks) :
    (action >>= next).Asks := by
  intro system
  cases outcome : (action.trace system).1 with
  | error error =>
      rw [trace_bind_of_error outcome]
      exact first system
  | ok value =>
      rw [trace_bind_of_ok outcome, first system, rest value]
      rfl

theorem asks_mapM {items : List α} {work : α → Action β} (each : ∀ item, (work item).Asks) :
    (items.mapM work).Asks := by
  induction items with
  | nil => exact asks_pure []
  | cons item rest ih =>
      rw [List.mapM_cons]
      exact (each item).bind fun _ => ih.bind fun _ => asks_pure _

theorem Asks.same (asks : action.Asks) {outcome : Except Error α}
    (ran : action.runOn system = (outcome, last)) : last = system := by
  rw [runOn_eq_trace, asks system] at ran
  exact (congrArg Prod.snd ran).symm

theorem Asks.runOn_of_fst (asks : action.Asks) {outcome : Except Error α}
    (given : (action.runOn system).1 = outcome) : action.runOn system = (outcome, system) :=
  Prod.ext given (asks.same (Prod.eta _).symm)

theorem Asks.exists_error_of_ne_ok (asks : action.Asks)
    (fails : ∀ value, action.runOn system ≠ (.ok value, system)) :
    ∃ error, action.runOn system = (.error error, system) := by
  cases ran : action.runOn system with
  | mk outcome last =>
      obtain rfl := asks.same ran
      cases outcome with
      | ok value => exact absurd ran (fails value)
      | error error => exact ⟨error, rfl⟩

/-- The first part of an action that succeeded has a value, found without a change. -/
theorem Asks.exists_of_runOn_bind (asks : action.Asks) {result : β}
    (succeeded : (action >>= next).runOn system = (.ok result, last)) :
    ∃ value, action.runOn system = (.ok value, system) ∧
      (next value).runOn system = (.ok result, last) := by
  obtain ⟨value, middle, first, rest⟩ := Action.exists_of_runOn_bind succeeded
  obtain rfl := asks.same first
  exact ⟨value, first, rest⟩

/-- An action that fails fails without a change in a first part that only asks, or behind it. -/
theorem Asks.same_or_of_runOn_bind (asks : action.Asks)
    (failed : (action >>= next).runOn system = (.error error, last)) :
    last = system ∨ ∃ value, action.runOn system = (.ok value, system) ∧
      (next value).runOn system = (.error error, last) := by
  cases outcome : (action.trace system).1 with
  | error reason =>
      rw [runOn_eq_trace, trace_bind_of_error outcome, asks system] at failed
      exact .inl (congrArg Prod.snd failed).symm
  | ok value =>
      have first : action.runOn system = (.ok value, system) := by
        rw [runOn_eq_trace, outcome, asks system]
        rfl
      rw [runOn_bind_of_ok value system first] at failed
      exact .inr ⟨value, first, failed⟩

end Action

namespace RecordFile

open Action

variable {ρ : Type} [StoredRecord ρ]

theorem asks_count (file : RecordFile ρ) : file.count.Asks :=
  (asks_on _ fun _ => rfl).bind fun _ => asks_of _

theorem asks_openAs (kind : StoreKind) (path : Path) : (openAs ρ kind path).Asks := by
  unfold openAs
  dsimp only
  split
  · exact asks_throw _
  · refine (asks_on _ fun _ => rfl).bind fun bytes => ?_
    split
    · exact asks_throw _
    · exact (asks_of _).bind fun header => (asks_count _).bind fun _ => asks_pure _

theorem asks_readAll (file : RecordFile ρ) : file.readAll.Asks :=
  (asks_on _ fun _ => rfl).bind fun _ => (asks_of _).bind fun _ => asks_of _

end RecordFile

namespace Collection

open Action

variable {collection : Collection}

theorem asks_file (kind : StoreKind) : (collection.file kind.Record kind).Asks :=
  RecordFile.asks_openAs kind _

theorem asks_read {ρ : Type} [StoredRecord ρ] (file : RecordFile ρ) (id : RecordId) :
    (file.read id).Asks := by
  have checks : (file.checkId id).Asks := by
    unfold RecordFile.checkId
    refine (RecordFile.asks_count file).bind fun held => ?_
    split
    · exact Action.asks_throw _
    · exact Action.asks_pure _
  exact checks.bind fun _ => (Action.asks_on _ fun _ => rfl).bind fun _ => Action.asks_of _

theorem asks_readInUse {ρ : Type} [StoredRecord ρ] (file : RecordFile ρ) (id : RecordId) :
    (file.readInUse id).Asks := by
  refine (asks_read file id).bind fun record => ?_
  split
  · exact Action.asks_pure _
  · exact Action.asks_throw _

theorem asks_keyNames : collection.keyNames.Asks :=
  (asks_file .index).bind fun _ => (RecordFile.asks_readAll _).bind fun _ => Action.asks_pure _

/-- Opens a file to see whether that can be done. -/
private def tryFile (collection : Collection) (kind : StoreKind) : Action Unit := do
  let _ ← collection.file kind.Record kind

private theorem asks_tryFile (kind : StoreKind) : (collection.tryFile kind).Asks :=
  (asks_file kind).bind fun _ => asks_pure ()

private theorem verify_eq_forM : collection.verify = StoreKind.all.forM collection.tryFile := by
  simp only [StoreKind.all, List.forM_eq_forM, List.forM_cons, List.forM_nil, tryFile, bind_assoc,
    pure_bind]
  rfl

theorem asks_verify : collection.verify.Asks := by
  have each : ∀ kinds : List StoreKind,
      Asks (kinds.forM collection.tryFile) := by
    intro kinds
    induction kinds with
    | nil => exact asks_pure ()
    | cons kind rest ih => exact (asks_tryFile kind).bind fun _ => ih
  rw [verify_eq_forM]
  exact each StoreKind.all

/-- A collection passes its check only if each of its files can be opened. -/
theorem exists_file_of_verify {system last : FileSystem} (kind : StoreKind)
    (passed : collection.verify.runOn system = (.ok (), last)) :
    ∃ file, (collection.file kind.Record kind).runOn system = (.ok file, system) := by
  have each : ∀ kinds : List StoreKind,
      (kinds.forM collection.tryFile).runOn system = (.ok (), last) →
      ∀ kind ∈ kinds, ∃ file, (collection.file kind.Record kind).runOn system =
        (.ok file, system) := by
    intro kinds
    induction kinds with
    | nil => exact fun _ => nofun
    | cons head rest ih =>
        intro passed
        obtain ⟨_, opened, others⟩ := (asks_tryFile head).exists_of_runOn_bind passed
        obtain ⟨file, found, _⟩ := (asks_file head).exists_of_runOn_bind opened
        exact List.forall_mem_cons.mpr ⟨⟨file, found⟩, ih others⟩
  rw [verify_eq_forM] at passed
  exact each StoreKind.all passed kind kind.mem_all

end Collection

/-!
## Sizes of files
-/

/-- How many records each file of a collection holds. -/
abbrev Counts := StoreKind → Nat

namespace Counts

variable {counts : Counts} {kind other : StoreKind}

/-- The numbers after so many more records of a kind. -/
def grow (counts : Counts) (kind : StoreKind) (more : Nat) : Counts :=
  Function.update counts kind (counts kind + more)

@[simp] theorem grow_self (more : Nat) : counts.grow kind more kind = counts kind + more :=
  Function.update_self ..

@[simp] theorem grow_of_ne (different : other ≠ kind) (more : Nat) :
    counts.grow kind more other = counts other :=
  Function.update_of_ne different ..

@[simp] theorem grow_grow (first second : Nat) :
    (counts.grow kind first).grow kind second = counts.grow kind (first + second) := by
  rw [grow, grow_self, grow, grow, Function.update_idem, Nat.add_assoc]

@[simp] theorem grow_zero : counts.grow kind 0 = counts := Function.update_eq_self ..

end Counts

/-- The directory of a collection, with the place to which its path leads and the headers that its
files are found to have. -/
structure Opened where
  collection : Collection
  place : Path
  header : StoreKind → StoreHeader

namespace Opened

variable {opened : Opened} {system : FileSystem} {kind : StoreKind}

def placeOf (opened : Opened) (kind : StoreKind) : Path := opened.place ++ [kind.fileName]

theorem placeOf_injective {left right : StoreKind}
    (same : opened.placeOf left = opened.placeOf right) : left = right := by
  apply StoreKind.fileName_injective
  exact (List.cons.inj (List.append_cancel_left same)).1

def file (opened : Opened) (kind : StoreKind) : RecordFile kind.Record :=
  ⟨opened.collection.pathOf kind, opened.header kind⟩

/-- Whether a file can be opened and holds a number of records. -/
structure SizedFile (opened : Opened) (kind : StoreKind) (count : Nat) (system : FileSystem) :
    Prop where
  file : ∃ content,
    system.HasFile (opened.collection.pathOf kind) (opened.placeOf kind) content ∧
    content.toList.length = headerSize + count * size kind.Record ∧
    StoreHeader.decodeAs kind (opened.collection.pathOf kind).text
      (content.toList.take headerSize) = .ok (opened.header kind)
  few : count < 0x100000000

/-- Whether all files can be opened and hold these numbers of records. -/
def Sized (opened : Opened) (counts : Counts) (system : FileSystem) : Prop :=
  ∀ kind, opened.SizedFile kind (counts kind) system

/-- A file may be written anew with the same header and a whole number of records. -/
theorem Sized.refile {counts : Counts} (sized : opened.Sized counts system)
    {content former : Content} {count : Nat}
    (file : system.HasFile (opened.collection.pathOf kind) (opened.placeOf kind) former)
    (front : content.toList.take headerSize = former.toList.take headerSize)
    (length : content.toList.length = headerSize + count * size kind.Record)
    (few : count < 0x100000000) :
    opened.Sized (Function.update counts kind count)
      (system.put (opened.placeOf kind) (.file content)) := by
  intro other
  by_cases same : other = kind
  · subst same
    rw [Function.update_self]
    obtain ⟨⟨known, knownFile, _, header⟩, _⟩ := sized other
    obtain rfl : known = former := by
      have stands := knownFile.stands.symm.trans file.stands
      exact Entry.file.inj (Option.some.inj stands)
    exact ⟨⟨content, file.put_self content, length, by rw [front, header]⟩, few⟩
  · rw [Function.update_of_ne same]
    obtain ⟨⟨otherContent, otherFile, facts⟩, otherFew⟩ := sized other
    have apart : opened.placeOf other ≠ opened.placeOf kind := fun equal =>
      same (placeOf_injective equal)
    exact ⟨⟨otherContent, otherFile.put_of_ne file apart content, facts⟩, otherFew⟩

theorem Sized.length_eq {counts : Counts} (sized : opened.Sized counts system) {content : Content}
    (file : system.HasFile (opened.collection.pathOf kind) (opened.placeOf kind) content) :
    content.toList.length = headerSize + counts kind * size kind.Record := by
  obtain ⟨⟨known, knownFile, length, -⟩, -⟩ := sized kind
  have stands := knownFile.stands.symm.trans file.stands
  rw [← Entry.file.inj (Option.some.inj stands), length]

theorem Sized.put {counts : Counts} (sized : opened.Sized counts system)
    {content former : Content} {more : List UInt8} {count : Nat}
    (file : system.HasFile (opened.collection.pathOf kind) (opened.placeOf kind) former)
    (longer : content.toList = former.toList ++ more)
    (width : more.length = count * size kind.Record) (few : counts kind + count < 0x100000000) :
    opened.Sized (counts.grow kind count)
      (system.put (opened.placeOf kind) (.file content)) := by
  have length := sized.length_eq file
  refine sized.refile file ?_ ?_ few
  · rw [longer, List.take_append_of_le_length (by omega)]
  · rw [longer, List.length_append, length, width, Nat.add_mul, Nat.add_assoc]

end Opened

/-- In a directory, the place of a name is found from the place of the directory. -/
theorem FileSystem.exists_forall_locate_child (system : FileSystem) (path : Path) :
    ∃ base, ∀ name place, isStep name = true → system.locate (path.child name) = .ok place →
      place = base ++ [name] := by
  cases above : system.follow [] path with
  | error refusal =>
      refine ⟨[], fun name place step located => ?_⟩
      obtain ⟨reached, found, -⟩ := exists_follow_of_child (follow_of_locate located) step
      rw [above] at found
      cases found
  | ok base =>
      refine ⟨base, fun name place step located => ?_⟩
      obtain ⟨reached, found, -, same⟩ := exists_follow_of_child (follow_of_locate located) step
      obtain rfl := Except.ok.inj (above.symm.trans found)
      exact same

/-!
## What a check finds out
-/

section

variable {ρ : Type} [StoredRecord ρ] {system last : FileSystem}

theorem RecordFile.countOf_of_runOn_count (file : RecordFile ρ) {place : Path} {content : Content}
    {count : Nat} (stands : system.HasFile file.path place content)
    (counted : file.count.runOn system = (.ok count, last)) :
    RecordFile.countOf ρ file.path content.toList.length = .ok count := by
  obtain ⟨bytes, sized, rest⟩ :=
    (Action.asks_on file.path fun _ => rfl).exists_of_runOn_bind counted
  have asked := Action.run_of_runOn_on sized
  rw [Disk.run_eq_trace, stands.trace_size, Content.size_eq_length] at asked
  cases asked
  exact congrArg Prod.fst rest

theorem exists_hasFile_of_runOn_slice {path : Path} {offset count : Nat} {bytes : List UInt8}
    (asked : (Action.on path (Disk.slice path offset count)).runOn system = (.ok bytes, last)) :
    ∃ place content, system.HasFile path place content ∧
      bytes = (content.toList.drop offset).take count := by
  have ran := Action.run_of_runOn_on asked
  obtain ⟨⟨place, content⟩, found, same⟩ := exists_of_map_eq_ok (congrArg Prod.fst ran)
  refine ⟨place, content, FileSystem.hasFile_of_openFile found, ?_⟩
  rw [← same, Content.slice_eq]

/-- A file that was opened has a header of its kind and a number of records. -/
theorem RecordFile.exists_of_runOn_openAs {kind : StoreKind} {path : Path} {file : RecordFile ρ}
    (positive : 0 < size ρ) (found : (RecordFile.openAs ρ kind path).runOn system = (.ok file, last)) :
    ∃ place content count, system.HasFile path place content ∧
      content.toList.length = headerSize + count * size ρ ∧ count < 0x100000000 ∧
      StoreHeader.decodeAs kind path.text (content.toList.take headerSize) = .ok file.header := by
  unfold RecordFile.openAs at found
  dsimp only at found
  split at found
  · cases found
  · obtain ⟨bytes, sliced, checked⟩ :=
      (Action.asks_on path fun _ => rfl).exists_of_runOn_bind found
    obtain ⟨place, content, stands, front⟩ := exists_hasFile_of_runOn_slice sliced
    split at checked
    · cases checked
    next long =>
      obtain ⟨header, decoded, counted⟩ := Action.exists_of_runOn_of checked
      obtain ⟨count, counts, returned⟩ :=
        (RecordFile.asks_count (ρ := ρ) ⟨path, header⟩).exists_of_runOn_bind counted
      cases returned
      rw [List.drop_zero] at front
      subst front
      have reaches : headerSize ≤ content.toList.length := by
        rw [List.length_take] at long
        omega
      obtain ⟨length, few⟩ := (RecordFile.countOf_eq_ok_iff path positive reaches).mp
        (RecordFile.countOf_of_runOn_count ⟨path, header⟩ stands counts)
      exact ⟨place, content, count, stands, length, few, decoded⟩

theorem Collection.exists_sized_of_verify {collection : Collection}
    (passed : collection.verify.runOn system = (.ok (), last)) :
    ∃ (opened : Opened) (counts : Counts),
      opened.collection = collection ∧ opened.Sized counts system := by
  have each : ∀ kind : StoreKind, ∃ (header : StoreHeader) (count : Nat) (place : Path)
      (content : Content), system.HasFile (collection.pathOf kind) place content ∧
        content.toList.length = headerSize + count * size kind.Record ∧ count < 0x100000000 ∧
        StoreHeader.decodeAs kind (collection.pathOf kind).text
          (content.toList.take headerSize) = .ok header := by
    intro kind
    obtain ⟨file, found⟩ := Collection.exists_file_of_verify kind passed
    obtain ⟨place, content, count, facts⟩ :=
      RecordFile.exists_of_runOn_openAs kind.size_pos found
    exact ⟨file.header, count, place, content, facts⟩
  choose header count place content facts using each
  obtain ⟨base, children⟩ := system.exists_forall_locate_child collection.directory
  refine ⟨⟨collection, base, header⟩, count, rfl, fun kind => ?_⟩
  obtain ⟨stands, length, few, decoded⟩ := facts kind
  rw [children _ _ kind.isStep_fileName stands.located] at stands
  exact ⟨⟨content kind, stands, length, decoded⟩, few⟩

end

/-!
## Actions that cannot fail
-/

namespace Opened

variable {opened : Opened} {counts before : Counts} {kind : StoreKind}

/-- Whether an action gives a value without a change wherever the files have some numbers of
records. -/
def Gives (opened : Opened) (action : Action α) (counts : Counts) (value : α) : Prop :=
  ∀ system, opened.Sized counts system → action.runOn system = (.ok value, system)

/-- Whether an action succeeds wherever the files have some numbers of records, with a value that
fits the numbers behind it. -/
def Completes (opened : Opened) (action : Action α) (before : Counts)
    (fits : α → Counts → Prop) : Prop :=
  ∀ system, opened.Sized before system → ∃ value counts last,
    action.runOn system = (.ok value, last) ∧ opened.Sized counts last ∧ fits value counts

variable {fits : α → Counts → Prop}

theorem Gives.pure (value : α) : opened.Gives (pure value) counts value := fun _ _ => rfl

theorem Gives.of {result : Except Error α} {value : α} (given : result = .ok value) :
    opened.Gives (.of result) counts value := by
  intro system _
  subst given
  rfl

theorem Gives.bind {action : Action α} {next : α → Action β} {value : α} {result : β}
    (first : opened.Gives action counts value) (rest : opened.Gives (next value) counts result) :
    opened.Gives (action >>= next) counts result := by
  intro system sized
  rw [Action.runOn_bind_of_ok value system (first system sized)]
  exact rest system sized

theorem Gives.completes {action : Action α} {value : α} (given : opened.Gives action before value)
    (fit : fits value before) : opened.Completes action before fits :=
  fun system sized => ⟨value, before, system, given system sized, sized, fit⟩

theorem Completes.bind {action : Action α} {next : α → Action β}
    {last : β → Counts → Prop} (first : opened.Completes action before fits)
    (rest : ∀ value counts, fits value counts → opened.Completes (next value) counts last) :
    opened.Completes (action >>= next) before last := by
  intro system sized
  obtain ⟨value, counts, middle, ran, middleSized, fit⟩ := first system sized
  rw [Action.runOn_bind_of_ok value middle ran]
  exact rest value counts fit middle middleSized

theorem Completes.imp {action : Action α} {weaker : α → Counts → Prop}
    (completes : opened.Completes action before fits)
    (weaken : ∀ value counts, fits value counts → weaker value counts) :
    opened.Completes action before weaker := by
  intro system sized
  obtain ⟨value, counts, last, ran, lastSized, fit⟩ := completes system sized
  exact ⟨value, counts, last, ran, lastSized, weaken value counts fit⟩

theorem Gives.bind_completes {action : Action α} {next : α → Action β} {value : α}
    {last : β → Counts → Prop} (first : opened.Gives action before value)
    (rest : opened.Completes (next value) before last) :
    opened.Completes (action >>= next) before last := by
  intro system sized
  rw [Action.runOn_bind_of_ok value system (first system sized)]
  exact rest system sized

/-- An action that completes does not fail. -/
theorem Completes.ne_error {action : Action α} {system last : FileSystem} {error : Error}
    (completes : opened.Completes action before fits) (sized : opened.Sized before system) :
    action.runOn system ≠ (.error error, last) := by
  intro failed
  obtain ⟨value, counts, other, ran, _⟩ := completes system sized
  rw [failed] at ran
  cases ran

theorem Sized.exists_counted {system : FileSystem} (sized : opened.Sized counts system)
    (kind : StoreKind) :
    ∃ content, system.HasFile (opened.file kind).path (opened.placeOf kind) content ∧
      headerSize ≤ content.toList.length ∧
      StoreHeader.decodeAs kind (opened.collection.pathOf kind).text
        (content.toList.take headerSize) = .ok (opened.header kind) ∧
      RecordFile.countOf kind.Record (opened.file kind).path content.toList.length =
        .ok (counts kind) := by
  obtain ⟨⟨content, file, length, decoded⟩, few⟩ := sized kind
  have long : headerSize ≤ content.toList.length := by omega
  exact ⟨content, file, long, decoded,
    (RecordFile.countOf_eq_ok_iff _ kind.size_pos long).mpr ⟨length, few⟩⟩

theorem gives_count (kind : StoreKind) :
    opened.Gives (opened.file kind).count counts (counts kind) := by
  intro system sized
  obtain ⟨content, file, -, -, counted⟩ := sized.exists_counted kind
  exact RecordFile.runOn_count_of_counted file counted

theorem gives_file (kind : StoreKind) :
    opened.Gives (opened.collection.file kind.Record kind) counts (opened.file kind) := by
  intro system sized
  obtain ⟨content, file, long, decoded, counted⟩ := sized.exists_counted kind
  exact RecordFile.runOn_openAs kind.recordSize_eq file decoded long counted

theorem completes_appendAll {records : List kind.Record}
    {fits : RecordId → Counts → Prop}
    (room : before kind + records.length < RecordFile.idLimit)
    (widths : ∀ record ∈ records, ∀ endian, (encode endian record).length = size kind.Record)
    (fit : fits (UInt32.ofNat (before kind)) (before.grow kind records.length)) :
    opened.Completes ((opened.file kind).appendAll records) before fits := by
  intro system sized
  obtain ⟨content, file, -, -, counted⟩ := sized.exists_counted kind
  refine ⟨_, _, _, RecordFile.runOn_appendAll_of_lt file counted room,
    sized.put file (Content.toList_append _ _) ?_ ?_, fit⟩
  · exact length_flatMap_of_forall fun record member => widths record member _
  · simp only [RecordFile.idLimit, absentId, UInt32.reduceToNat] at room
    omega

end Opened

/-!
## Files that hold records
-/

namespace Site

variable {site : Site} {stores : Stores} {system : FileSystem}

/-- The files as those of a collection that can be opened. -/
def opened (site : Site) : Opened :=
  ⟨site.collection, site.place, fun kind => .fresh kind site.endian⟩

theorem Holds.sized (held : site.Holds stores system) :
    site.opened.Sized (fun kind => (stores kind).length) system := by
  intro kind
  obtain ⟨⟨content, file, written⟩, faithful, short⟩ := held kind
  refine ⟨⟨content, file, ?_, ?_⟩, Nat.lt_trans short (by decide)⟩
  · rw [written, length_fileBytes faithful]
  · rw [written, fileBytes, List.take_left' (StoreHeader.length_encode _)]
    exact StoreHeader.decodeAs_fresh kind site.endian _

end Site

end GraphStore
