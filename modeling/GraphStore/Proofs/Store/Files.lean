import GraphStore.Proofs.Store.Slots
import GraphStore.Proofs.Store.Steps

/-!
# Operations on single files

What the operations of a record file do to the list of its records. Main statements: one lemma for
each operation, from opening a file to writing over a record.
-/

set_option autoImplicit false

namespace GraphStore

open StoredRecord

/-- Whether an operation failed because a file has no numbers left for its records. -/
def Error.isFull : Error → Bool
  | .payloadTooLarge what _ _ => what = "record id"
  | _ => false

namespace Site

variable {site : Site} {stores before : Stores} {kind : StoreKind}

/-!
## Questions
-/

theorem HoldsFile.countOf_eq {records : List kind.Record} {system : FileSystem}
    (held : site.HoldsFile kind records system) (path : Path) :
    RecordFile.countOf kind.Record path (fileBytes site.endian kind records).length =
      .ok records.length := by
  rw [held.length_fileBytes]
  exact (RecordFile.countOf_eq_ok_iff path kind.size_pos (Nat.le_add_right ..)).mpr
    ⟨rfl, Nat.lt_trans held.short (by decide)⟩

theorem yields_count (kind : StoreKind) :
    site.Yields (site.file kind).count stores (.ok (stores kind).length) := by
  have asked : site.Yields (.on (site.file kind).path (Disk.size (site.file kind).path)) stores
      (.ok (fileBytes site.endian kind (stores kind)).length) := by
    apply Yields.on
    intro system held
    obtain ⟨content, file, written⟩ := (held kind).file
    exact file.trace_size.trans (by rw [Content.size_eq_length, written])
  intro system held
  refine asked.bind ?_ system held
  exact .of ((held kind).countOf_eq (site.file kind).path)

theorem yields_openAs (kind : StoreKind) :
    site.Yields (RecordFile.openAs kind.Record kind (site.collection.pathOf kind)) stores
      (.ok (site.file kind)) := by
  have asked : site.Yields
      (.on (site.collection.pathOf kind) (Disk.slice (site.collection.pathOf kind) 0 headerSize))
      stores (.ok (StoreHeader.fresh kind site.endian).encode) := by
    apply Yields.on
    intro system held
    obtain ⟨content, file, written⟩ := (held kind).file
    rw [file.trace_slice, Content.slice_eq, written, fileBytes, List.drop_zero,
      List.take_left' (StoreHeader.length_encode _)]
  have long : ¬(StoreHeader.fresh kind site.endian).encode.length < headerSize := by
    rw [StoreHeader.length_encode]
    exact Nat.lt_irrefl _
  have header := StoreHeader.decodeAs_fresh kind site.endian (site.collection.pathOf kind).text
  unfold RecordFile.openAs
  simp only [kind.recordSize_eq, ne_eq, not_true_eq_false, ↓reduceIte]
  refine (Yields.pure _).bind (asked.bind ?_)
  simp only [long, ↓reduceIte]
  refine (Yields.pure _).bind ?_
  exact (Yields.of header).bind ((yields_count kind).bind (.pure _))

theorem yields_verify : site.Yields site.collection.verify stores (.ok ()) := by
  have nodes : site.Yields site.collection.nodes stores _ := yields_openAs .node
  have nodeIds : site.Yields site.collection.nodeIds stores _ := yields_openAs .nodeId
  have relationships : site.Yields site.collection.relationships stores _ :=
    yields_openAs .relationship
  have labels : site.Yields site.collection.labels stores _ := yields_openAs .label
  have properties : site.Yields site.collection.properties stores _ := yields_openAs .property
  have texts : site.Yields site.collection.texts stores _ := yields_openAs .string
  have arrays : site.Yields site.collection.arrays stores _ := yields_openAs .array
  have keys : site.Yields site.collection.keys stores _ := yields_openAs .index
  unfold Collection.verify
  refine nodes.bind (nodeIds.bind (relationships.bind (labels.bind ?_)))
  exact properties.bind (texts.bind (arrays.bind (keys.bind (.pure ()))))

theorem yields_read {id : RecordId} {record : kind.Record}
    (found : (stores kind)[id.toNat]? = some record) :
    site.Yields ((site.file kind).read id) stores (.ok record) := by
  have inside : ¬(stores kind).length ≤ id.toNat := by
    obtain ⟨inside, -⟩ := List.getElem?_eq_some_iff.mp found
    exact Nat.not_le.mpr inside
  have checked : site.Yields ((site.file kind).checkId id) stores (.ok ()) := by
    refine (yields_count kind).bind ?_
    simp only [inside, ↓reduceIte]
    exact .pure ()
  have asked : site.Yields
      (.on (site.file kind).path
        (Disk.slice (site.file kind).path (RecordFile.offset kind.Record id) (size kind.Record)))
      stores (.ok (encode site.endian record)) := by
    apply Yields.on
    intro system held
    obtain ⟨content, file, written⟩ := (held kind).file
    refine (file.trace_slice _ _).trans ?_
    rw [Content.slice_eq, written, fileBytes, RecordFile.offset, ← List.drop_drop,
      List.drop_left' (StoreHeader.length_encode _),
      slice_flatMap_of_forall ((held kind).length_encode site.endian) found]
  intro system held
  have faithful := (held kind).faithful record (List.mem_of_getElem? found)
  refine checked.bind (asked.bind ?_) system held
  exact .of (faithful.decode_encode site.endian)

theorem yields_read_none {id : RecordId} (missing : (stores kind)[id.toNat]? = none) :
    ∃ detail, site.Yields ((site.file kind).read id) stores (.error (.notFound detail)) := by
  have outside : (stores kind).length ≤ id.toNat := List.getElem?_eq_none_iff.mp missing
  have checked : site.Yields ((site.file kind).checkId id) stores
      (.error (.notFound
        s!"{kindName kind.Record} record {id} (store holds {(stores kind).length})")) := by
    refine (yields_count kind).bind ?_
    simp only [outside, ↓reduceIte]
    exact .throw _
  exact ⟨_, checked.bind_error _⟩

theorem yields_readInUse {id : RecordId} {record : kind.Record}
    (found : (stores kind)[id.toNat]? = some record) (taken : inUse record = true) :
    site.Yields ((site.file kind).readInUse id) stores (.ok record) := by
  refine (yields_read found).bind ?_
  simp only [taken, ↓reduceIte]
  exact .pure record

theorem yields_readInUse_none {id : RecordId} (missing : (stores kind)[id.toNat]? = none) :
    ∃ detail, site.Yields ((site.file kind).readInUse id) stores (.error (.notFound detail)) := by
  obtain ⟨detail, refused⟩ := yields_read_none missing
  exact ⟨detail, refused.bind_error _⟩

theorem yields_readAll (kind : StoreKind) :
    site.Yields (site.file kind).readAll stores (.ok (stores kind)) := by
  have asked : site.Yields (.on (site.file kind).path (Disk.content (site.file kind).path)) stores
      (.ok (fileBytes site.endian kind (stores kind))) := by
    apply Yields.on
    intro system held
    obtain ⟨content, file, written⟩ := (held kind).file
    exact file.trace_content.trans (by rw [written])
  intro system held
  have decoded : ((stores kind).map (encode site.endian)).mapM (decode site.endian) =
      .ok (stores kind) := by
    rw [List.mapM_map]
    refine (mapM_eq_ok fun record member => ?_).trans (congrArg Except.ok (List.map_id _))
    exact ((held kind).faithful record member).decode_encode site.endian
  have counted := (held kind).countOf_eq (site.file kind).path
  have cut := slices_flatMap_of_forall ((held kind).length_encode site.endian)
  refine asked.bind (Yields.bind (.of counted) ?_) system held
  rw [fileBytes, List.drop_left' (StoreHeader.length_encode _), cut]
  exact .of decoded

/-- A file system holds no other records than it does. -/
theorem Holds.unique {system : FileSystem} (left : site.Holds before system)
    (right : site.Holds stores system) : before = stores := by
  funext kind
  have same := (yields_readAll kind system left).symm.trans (yields_readAll kind system right)
  exact Except.ok.inj (congrArg Prod.fst same)

/-!
## Changes
-/

variable {passing : Stores → Prop}

/-- A change of a file that succeeds has one list behind it. -/
theorem ensures_change {change : Change} {path : Path} {changed : Stores}
    {after : Except Error Unit → Stores → Prop}
    (done : ∀ system, site.Holds before system → ∃ later, system.change change = .ok later ∧
      site.Holds changed later ∧ site.Beside system later)
    (passes : passing changed) (ends : after (.ok ()) changed) :
    site.Ensures (.on path (Disk.change change)) before passing after := by
  intro system held
  obtain ⟨later, succeeded, laterHeld, beside⟩ := done system held
  have traced : (Action.on path (Disk.change change)).trace system = (.ok (), [later]) := by
    rw [Action.trace_on, Disk.trace_change, succeeded]
    rfl
  rw [traced]
  refine ⟨[changed], .cons ⟨laterHeld, beside⟩ .nil, ?_, ends⟩
  intro stores member
  exact List.mem_singleton.mp member ▸ passes

private theorem Follow.unique {system : FileSystem} {path other : List Stores}
    {systems : List FileSystem} (left : site.Follow system path systems)
    (right : site.Follow system other systems) : path = other := by
  induction left generalizing other with
  | nil =>
      cases right
      rfl
  | cons here _ ih =>
      cases right with
      | cons there others => rw [here.1.unique there.1, ih others]

/-- What two proofs say of the runs of an action, both of them together say. -/
theorem Ensures.and {α : Type} {action : Action α} {onPassing : Stores → Prop}
    {after onAfter : Except Error α → Stores → Prop}
    (left : site.Ensures action before passing after)
    (right : site.Ensures action before onPassing onAfter) :
    site.Ensures action before (fun stores => passing stores ∧ onPassing stores)
      fun outcome stores => after outcome stores ∧ onAfter outcome stores := by
  intro system held
  obtain ⟨path, followed, passed, fits⟩ := left system held
  obtain ⟨other, otherFollowed, otherPassed, otherFits⟩ := right system held
  obtain rfl := followed.unique otherFollowed
  exact ⟨path, followed, fun stores member => ⟨passed stores member, otherPassed stores member⟩,
    fits, otherFits⟩

theorem ensures_appendAll {records : List kind.Record}
    {after : Except Error RecordId → Stores → Prop}
    (faithful : (before kind).length + records.length < RecordFile.idLimit →
      ∀ record ∈ records, Faithful record)
    (full : RecordFile.idLimit ≤ (before kind).length + records.length →
      ∀ error, error.isFull = true → after (.error error) before)
    (stored : (before kind).length + records.length < RecordFile.idLimit →
      passing (before.set kind (before kind ++ records)) ∧
        after (.ok (UInt32.ofNat (before kind).length))
          (before.set kind (before kind ++ records))) :
    site.Ensures ((site.file kind).appendAll records) before passing after := by
  refine (yields_count kind).bind_ensures ?_
  by_cases crowded : RecordFile.idLimit ≤ (before kind).length + records.length
  · simp only [crowded, ↓reduceIte]
    exact ((Yields.throw _).bind_error _).ensures (full crowded _ rfl)
  · simp only [crowded, ↓reduceIte]
    obtain ⟨passes, ends⟩ := stored (Nat.lt_of_not_le crowded)
    have changed : site.Ensures
        (.on (site.file kind).path (Disk.change (.append (site.file kind).path
          (records.flatMap (encode (site.file kind).endian))))) before passing
        fun outcome stores =>
          outcome = .ok () ∧ stores = before.set kind (before kind ++ records) := by
      refine ensures_change ?_ passes ⟨rfl, rfl⟩
      intro system held
      obtain ⟨content, file, written⟩ := (held kind).file
      refine ⟨_, file.change_append _, held.put ?_ ?_ ?_, beside_put system kind _⟩
      · rw [Content.toList_append, written, fileBytes, fileBytes, List.flatMap_append,
          List.append_assoc]
        rfl
      · intro record member
        rcases List.mem_append.mp member with former | new
        · exact (held kind).faithful record former
        · exact faithful (Nat.lt_of_not_le crowded) record new
      · rw [List.length_append]
        exact Nat.lt_of_not_le crowded
    refine changed.bind ?_ ?_
    · intro value stores ended
      obtain ⟨-, rfl⟩ := ended
      exact (Yields.pure _).ensures ends
    · intro error stores ended
      obtain ⟨impossible, -⟩ := ended
      cases impossible

theorem ensures_append {record : kind.Record} {after : Except Error RecordId → Stores → Prop}
    (faithful : Faithful record)
    (full : RecordFile.idLimit ≤ (before kind).length + 1 →
      ∀ error, error.isFull = true → after (.error error) before)
    (stored : (before kind).length + 1 < RecordFile.idLimit →
      passing (before.set kind (before kind ++ [record])) ∧
        after (.ok (UInt32.ofNat (before kind).length))
          (before.set kind (before kind ++ [record]))) :
    site.Ensures ((site.file kind).append record) before passing after := by
  refine ensures_appendAll ?_ full stored
  intro _ other member
  exact List.mem_singleton.mp member ▸ faithful

theorem ensures_writeAt {id : RecordId} {record : kind.Record}
    {after : Except Error Unit → Stores → Prop} (inside : id.toNat < (before kind).length)
    (faithful : Faithful record)
    (passes : passing (before.set kind ((before kind).set id.toNat record)))
    (ends : after (.ok ()) (before.set kind ((before kind).set id.toNat record))) :
    site.Ensures ((site.file kind).writeAt id record) before passing after := by
  have checked : site.Yields ((site.file kind).checkId id) before (.ok ()) := by
    refine (yields_count kind).bind ?_
    simp only [Nat.not_le.mpr inside, ↓reduceIte]
    exact .pure ()
  refine checked.bind_ensures (ensures_change ?_ passes ends)
  intro system held
  obtain ⟨content, file, written⟩ := (held kind).file
  refine ⟨_, file.change_overwrite _ _, held.put ?_ ?_ ?_, beside_put system kind _⟩
  · exact toList_overwrite_of_fileBytes written (held kind).faithful inside faithful
  · intro other member
    rcases List.mem_or_eq_of_mem_set member with former | same
    · exact (held kind).faithful other former
    · exact same ▸ faithful
  · rw [List.length_set]
    exact (held kind).short

end Site

end GraphStore
