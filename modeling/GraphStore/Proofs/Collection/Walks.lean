import GraphStore.Engine.Nodes
import GraphStore.Proofs.Collection.Opening
import GraphStore.Proofs.Collection.Routes

/-!
# Walks along chains, whatever the files hold

A walk reads one record after another, up to a limit. Main statements: it takes what each record of a
way to the end holds, once and in order, and the limit never stops it there; where it succeeds there
is a way to the end, and where the way has no end it fails.
-/

set_option autoImplicit false

namespace GraphStore

open StoredRecord

variable {α ρ : Type}

namespace Collection

/-!
## Any walk
-/

theorem asks_walk {visit : RecordId → Action (α × Option RecordId)} (asks : ∀ id, (visit id).Asks)
    (endless : Error) (limit : Nat) (start : Option RecordId) :
    (walk visit endless limit start).Asks := by
  induction limit generalizing start with
  | zero =>
      cases start with
      | none => exact Action.asks_pure []
      | some id => exact Action.asks_throw endless
  | succ limit ih =>
      cases start with
      | none => exact Action.asks_pure []
      | some id => exact (asks id).bind fun _ => (ih _).bind fun _ => Action.asks_pure _

/-- Whether a visit finds a record below a limit, takes something from it and goes on where it
points, on a file system. -/
structure Visits (system : FileSystem) (limit : Nat) (finds : RecordId → ρ → Prop)
    (next : ρ → Option RecordId) (hold : RecordId → ρ → Action α)
    (visit : RecordId → Action (α × Option RecordId)) : Prop where
  unique : ∀ id left right, finds id left → finds id right → left = right
  below : ∀ id record, finds id record → id.toNat < limit
  asks : ∀ id, (visit id).Asks
  found : ∀ id record, finds id record →
    (visit id).runOn system = (do return (← hold id record, next record)).runOn system
  missed : ∀ id, (¬∃ record, finds id record) →
    ∃ error, (visit id).runOn system = (.error error, system)

namespace Visits

variable {system last : FileSystem} {limit room : Nat} {finds : RecordId → ρ → Prop}
  {next : ρ → Option RecordId} {hold : RecordId → ρ → Action α}
  {visit : RecordId → Action (α × Option RecordId)} {start : Option RecordId}
  {visited : List (RecordId × ρ)} {endless : Error}
  (visits : Visits system limit finds next hold visit)
include visits

/-- What a visit gives is what its record holds, found without a change. -/
theorem runOn_visit {id : RecordId} {record : ρ} (found : finds id record) :
    ∃ outcome, (hold id record).runOn system = (outcome, system) ∧
      (visit id).runOn system = (outcome.map fun held => (held, next record), system) := by
  have same := visits.found id record found
  rw [Action.runOn_map] at same
  have unchanged := (visits.asks id).same same
  exact ⟨((hold id record).runOn system).1, Prod.ext rfl unchanged, by rw [same, unchanged]⟩

private theorem runOn_walk_of_le (route : Route finds next start visited none)
    (short : visited.length ≤ room) :
    (walk visit endless room start).runOn system =
      (visited.mapM fun entry => hold entry.1 entry.2).runOn system := by
  induction visited generalizing start room with
  | nil =>
      cases route
      cases room <;> rfl
  | cons entry rest ih =>
      cases route with
      | cons found onward =>
          cases room with
          | zero => cases short
          | succ room =>
              have others := ih onward (Nat.le_of_succ_le_succ short)
              obtain ⟨outcome, held, visit⟩ := visits.runOn_visit found
              rw [List.mapM_cons, walk]
              cases outcome with
              | error error =>
                  rw [Action.runOn_bind_of_error visit, Action.runOn_bind_of_error held]
              | ok value =>
                  rw [Action.runOn_bind_of_ok _ system visit, Action.runOn_bind_of_ok _ system held]
                  exact Action.runOn_bind_congr others _

/-- On a way to the end, each record is visited once and in order. -/
theorem runOn_walk (route : Route finds next start visited none) :
    (walk visit endless limit start).runOn system =
      (visited.mapM fun entry => hold entry.1 entry.2).runOn system :=
  visits.runOn_walk_of_le route (route.length_le visits.unique visits.below)

theorem exists_route {values : List α}
    (walked : (walk visit endless room start).runOn system = (.ok values, last)) :
    ∃ visited, Route finds next start visited none := by
  induction room generalizing start values last with
  | zero =>
      cases start with
      | none => exact ⟨[], .nil none⟩
      | some id => cases walked
  | succ room ih =>
      cases start with
      | none => exact ⟨[], .nil none⟩
      | some id =>
          rw [walk] at walked
          obtain ⟨step, ran, onward⟩ := (visits.asks id).exists_of_runOn_bind walked
          obtain ⟨others, middle, walkedOn, -⟩ := Action.exists_of_runOn_bind onward
          by_cases found : ∃ record, finds id record
          · obtain ⟨record, found⟩ := found
            obtain ⟨outcome, -, visit⟩ := visits.runOn_visit found
            obtain ⟨held, -, rfl⟩ :=
              exists_of_map_eq_ok (congrArg Prod.fst (visit.symm.trans ran))
            obtain ⟨visited, route⟩ := ih walkedOn
            exact ⟨_, .cons found route⟩
          · obtain ⟨error, missed⟩ := visits.missed id found
            rw [missed] at ran
            cases ran

/-- A way without an end is given up, as long as its records hold something. -/
theorem runOn_walk_of_endless (goes : Route.Endless finds next start)
    (holds : ∀ id record, finds id record →
      ∃ value, (hold id record).runOn system = (.ok value, system)) (room : Nat) :
    (walk visit endless room start).runOn system = (.error endless, system) := by
  induction room generalizing start with
  | zero =>
      obtain ⟨id, record, rfl, -⟩ := goes.exists_next visits.unique
      rfl
  | succ room ih =>
      obtain ⟨id, record, rfl, found, onward⟩ := goes.exists_next visits.unique
      obtain ⟨value, held⟩ := holds id record found
      have visit : (visit id).runOn system = (.ok (value, next record), system) := by
        rw [visits.found id record found, Action.runOn_map, held]
        rfl
      rw [walk, Action.runOn_bind_of_ok _ system visit]
      exact Action.runOn_bind_of_error (ih onward) _

end Visits

/-!
## Records in files
-/

/-- Whether the file of some kind has a header of that kind and a whole number of records behind it,
with some bytes. -/
structure IsWhole (collection : Collection) (system : FileSystem) (kind : StoreKind)
    (header : StoreHeader) (content : Content) (count : Nat) : Prop where
  stands : ∃ place, system.HasFile (collection.pathOf kind) place content
  decoded : StoreHeader.decodeAs kind (collection.pathOf kind).text
    (content.toList.take headerSize) = .ok header
  length : content.toList.length = headerSize + count * kind.recordSize
  few : count < 0x100000000

/-- Whether a record in use stands at a number in the file of its kind: the number is below that of
the records, and the bytes there are those of the record. -/
def Finds (collection : Collection) (system : FileSystem) (kind : StoreKind) (id : RecordId)
    (record : kind.Record) : Prop :=
  ∃ header content count, collection.IsWhole system kind header content count ∧
    id.toNat < count ∧
    decode header.endian (RecordFile.slot kind.Record content.toList id) = .ok record ∧
    inUse record = true

variable {collection : Collection} {system last : FileSystem} {kind : StoreKind}
  {header : StoreHeader} {content : Content} {count : Nat} {id : RecordId} {record : kind.Record}

/-- An open file with a header. -/
def fileWith (collection : Collection) (kind : StoreKind) (header : StoreHeader) :
    RecordFile kind.Record := ⟨collection.pathOf kind, header⟩

namespace IsWhole

theorem unique {otherHeader : StoreHeader} {otherContent : Content} {otherCount : Nat}
    (whole : collection.IsWhole system kind header content count)
    (other : collection.IsWhole system kind otherHeader otherContent otherCount) :
    header = otherHeader ∧ content = otherContent ∧ count = otherCount := by
  obtain ⟨place, stands⟩ := whole.stands
  obtain ⟨otherPlace, otherStands⟩ := other.stands
  obtain rfl := Except.ok.inj (stands.located.symm.trans otherStands.located)
  obtain rfl := Entry.file.inj (Option.some.inj (stands.stands.symm.trans otherStands.stands))
  refine ⟨Except.ok.inj (whole.decoded.symm.trans other.decoded), rfl, ?_⟩
  have lengths := Nat.add_left_cancel (whole.length.symm.trans other.length)
  rw [kind.recordSize_eq] at lengths
  exact Nat.eq_of_mul_eq_mul_right kind.size_pos lengths

variable (whole : collection.IsWhole system kind header content count)
include whole

theorem counted : RecordFile.countOf kind.Record (collection.pathOf kind) content.toList.length =
    .ok count := by
  have length := whole.length
  rw [kind.recordSize_eq] at length
  refine (RecordFile.countOf_eq_ok_iff _ kind.size_pos ?_).mpr ⟨length, whole.few⟩
  omega

theorem runOn_file : (collection.file kind.Record kind).runOn system =
    (.ok (collection.fileWith kind header), system) := by
  obtain ⟨place, stands⟩ := whole.stands
  have length := whole.length
  exact RecordFile.runOn_openAs kind.recordSize_eq stands whole.decoded (by omega) whole.counted

theorem runOn_count : (collection.fileWith kind header).count.runOn system =
    (.ok count, system) := by
  obtain ⟨place, stands⟩ := whole.stands
  exact RecordFile.runOn_count_of_counted stands whole.counted

theorem runOn_read_of_lt (inside : id.toNat < count) :
    ((collection.fileWith kind header).read id).runOn system =
      (decode header.endian (RecordFile.slot kind.Record content.toList id), system) := by
  obtain ⟨place, stands⟩ := whole.stands
  exact RecordFile.runOn_read_of_lt stands whole.counted inside

/-- The records that are found are those that can be read. -/
theorem finds_iff : collection.Finds system kind id record ↔
    ((collection.fileWith kind header).readInUse id).runOn system = (.ok record, system) := by
  constructor
  · intro found
    obtain ⟨otherHeader, otherContent, otherCount, other, inside, decoded, taken⟩ := found
    obtain ⟨rfl, rfl, rfl⟩ := whole.unique other
    have read := whole.runOn_read_of_lt inside
    rw [decoded] at read
    rw [RecordFile.runOn_readInUse_of_ok read, if_pos taken]
  · intro succeeded
    by_cases inside : id.toNat < count
    · have read := whole.runOn_read_of_lt inside
      cases decoded : (decode header.endian (RecordFile.slot kind.Record content.toList id) :
          Except Error kind.Record) with
      | error error =>
          rw [decoded] at read
          rw [RecordFile.runOn_readInUse_of_error read] at succeeded
          cases succeeded
      | ok other =>
          rw [decoded] at read
          rw [RecordFile.runOn_readInUse_of_ok read] at succeeded
          split at succeeded
          next taken =>
            cases succeeded
            exact ⟨header, content, count, whole, inside, decoded, taken⟩
          next => cases succeeded
    · obtain ⟨place, stands⟩ := whole.stands
      have refused : ((collection.fileWith kind header).read id).runOn system = _ :=
        RecordFile.runOn_read_of_le stands whole.counted (Nat.le_of_not_lt inside)
      rw [RecordFile.runOn_readInUse_of_error refused] at succeeded
      cases succeeded

end IsWhole

theorem finds_unique (id : RecordId) (left right : kind.Record)
    (here : collection.Finds system kind id left)
    (there : collection.Finds system kind id right) : left = right := by
  obtain ⟨header, content, count, whole, behind⟩ := here
  have same := (whole.finds_iff.mp ⟨header, content, count, whole, behind⟩).symm.trans
    (whole.finds_iff.mp there)
  exact Except.ok.inj (congrArg Prod.fst same)

namespace IsWhole

variable (whole : collection.IsWhole system kind header content count)
include whole

/-- A visit that begins with the reading of a record in use. -/
theorem visits {next : kind.Record → Option RecordId} {hold : RecordId → kind.Record → Action α}
    (asks : ∀ id record, (hold id record).Asks) :
    Visits system count (collection.Finds system kind) next hold fun id => do
      let record ← (collection.fileWith kind header).readInUse id
      let held ← hold id record
      return (held, next record) where
  unique := finds_unique
  below id record found := by
    obtain ⟨_, _, otherCount, other, inside, -⟩ := found
    obtain ⟨-, -, rfl⟩ := whole.unique other
    exact inside
  asks id := (asks_readInUse _ id).bind fun record =>
    (asks id record).bind fun _ => Action.asks_pure _
  found id record found := by
    rw [Action.runOn_bind_of_ok record system (whole.finds_iff.mp found)]
  missed id none := by
    cases ran : ((collection.fileWith kind header).readInUse id).runOn system with
    | mk outcome last =>
        obtain rfl := (asks_readInUse _ id).same ran
        cases outcome with
        | ok record => exact absurd ⟨record, whole.finds_iff.mpr ran⟩ none
        | error error => exact ⟨error, Action.runOn_bind_of_error ran _⟩

section

variable {next : kind.Record → Option RecordId} {start : Option RecordId}
  {visited : List (RecordId × kind.Record)}

/-- A visit that only takes something from a record in use. -/
private theorem visits_give (next : kind.Record → Option RecordId)
    (give : RecordId → kind.Record → α) :
    Visits system count (collection.Finds system kind) next
      (fun id record => (pure (give id record) : Action α)) fun id => do
        let record ← (collection.fileWith kind header).readInUse id
        return (give id record, next record) :=
  whole.visits fun _ _ => Action.asks_pure _

/-- A walk that takes something from each record succeeds on a way to the end, and there only. -/
theorem runOn_walk_eq_ok_iff (give : RecordId → kind.Record → α) (endless : Error)
    (values : List α) :
    (walk (fun id => do
        let record ← (collection.fileWith kind header).readInUse id
        return (give id record, next record)) endless count start).runOn system =
        (.ok values, system) ↔
      ∃ visited, Route (collection.Finds system kind) next start visited none ∧
        values = visited.map fun entry => give entry.1 entry.2 := by
  have visits := whole.visits_give next give
  have walked {visited : List (RecordId × kind.Record)}
      (route : Route (collection.Finds system kind) next start visited none) :
      (walk (fun id => do
        let record ← (collection.fileWith kind header).readInUse id
        return (give id record, next record)) endless count start).runOn system =
        (.ok (visited.map fun entry => give entry.1 entry.2), system) := by
    rw [visits.runOn_walk route, List.mapM_pure]
    rfl
  constructor
  · intro succeeded
    obtain ⟨visited, route⟩ := visits.exists_route succeeded
    exact ⟨visited, route, Except.ok.inj (congrArg Prod.fst (succeeded.symm.trans (walked route)))⟩
  · intro given
    obtain ⟨visited, route, rfl⟩ := given
    exact walked route

/-- A walk that comes back to a record is given up. -/
theorem runOn_walk_of_revisit (give : RecordId → kind.Record → α) (endless : Error) {id : RecordId}
    (route : Route (collection.Finds system kind) next start visited (some id))
    (again : id ∈ visited.map Prod.fst) :
    (walk (fun id => do
        let record ← (collection.fileWith kind header).readInUse id
        return (give id record, next record)) endless count start).runOn system =
      (.error endless, system) :=
  (whole.visits_give next give).runOn_walk_of_endless (Route.endless_of_revisit route again)
    (fun id record _ => ⟨give id record, rfl⟩) count

end

end IsWhole

theorem exists_isWhole_of_runOn_file {file : RecordFile kind.Record}
    (opened : (collection.file kind.Record kind).runOn system = (.ok file, last)) :
    ∃ content count, collection.IsWhole system kind file.header content count ∧
      file = collection.fileWith kind file.header := by
  obtain ⟨place, content, count, stands, length, few, decoded⟩ :=
    RecordFile.exists_of_runOn_openAs kind.size_pos opened
  rw [← kind.recordSize_eq] at length
  have whole : collection.IsWhole system kind file.header content count :=
    ⟨⟨place, stands⟩, decoded, length, few⟩
  refine ⟨content, count, whole, ?_⟩
  exact Except.ok.inj (congrArg Prod.fst (opened.symm.trans whole.runOn_file))

/-- The check of a collection passes if and only if all its files are whole. -/
theorem verify_eq_ok_iff : collection.verify.runOn system = (.ok (), system) ↔
    ∀ kind, ∃ header content count, collection.IsWhole system kind header content count := by
  constructor
  · intro passed kind
    obtain ⟨file, opened⟩ := exists_file_of_verify kind passed
    obtain ⟨content, count, whole, -⟩ := exists_isWhole_of_runOn_file opened
    exact ⟨file.header, content, count, whole⟩
  · intro whole
    choose header content count whole using whole
    have nodes : collection.nodes.runOn system = _ := (whole .node).runOn_file
    have nodeIds : collection.nodeIds.runOn system = _ := (whole .nodeId).runOn_file
    have relationships : collection.relationships.runOn system = _ := (whole .relationship).runOn_file
    have labels : collection.labels.runOn system = _ := (whole .label).runOn_file
    have properties : collection.properties.runOn system = _ := (whole .property).runOn_file
    have texts : collection.texts.runOn system = _ := (whole .string).runOn_file
    have arrays : collection.arrays.runOn system = _ := (whole .array).runOn_file
    have keys : collection.keys.runOn system = _ := (whole .index).runOn_file
    unfold verify
    rw [Action.runOn_bind_of_ok _ system nodes, Action.runOn_bind_of_ok _ system nodeIds,
      Action.runOn_bind_of_ok _ system relationships, Action.runOn_bind_of_ok _ system labels,
      Action.runOn_bind_of_ok _ system properties, Action.runOn_bind_of_ok _ system texts,
      Action.runOn_bind_of_ok _ system arrays, Action.runOn_bind_of_ok _ system keys]
    rfl

/-!
## Texts
-/

/-- The pieces of a text, from the record of the first one on. -/
abbrev TextRoute (collection : Collection) (system : FileSystem) :=
  Route (collection.Finds system .string) TextRecord.next

/-- The records of properties that are chained. -/
abbrev PropertyRoute (collection : Collection) (system : FileSystem) :=
  Route (collection.Finds system .property) fun record => record.next.map UInt16.toUInt32

/-- The relationships that are chained at a node. -/
abbrev RelationshipRoute (collection : Collection) (system : FileSystem) (node : RecordId) :=
  Route (collection.Finds system .relationship) fun record => record.next node

theorem asks_readText (head : RecordId) : (collection.readText head).Asks := by
  refine (asks_file .string).bind fun file => (RecordFile.asks_count file).bind fun limit => ?_
  refine (asks_walk (fun id => ?_) _ _ _).bind fun chunks => ?_
  · exact (asks_readInUse file id).bind fun _ => Action.asks_pure _
  · split
    · exact Action.asks_pure _
    · exact Action.asks_throw _

theorem asks_readBlock (keys : List String) (id : RecordId) (block : PropertyBlock) :
    (collection.readBlock keys id block).Asks := by
  unfold readBlock
  split
  · exact Action.asks_throw _
  · split
    · exact Action.asks_pure _
    · exact Action.asks_pure _
    · exact (asks_readText _).bind fun _ => Action.asks_pure _
    · exact Action.asks_throw _

theorem asks_readProperties (head : Option RecordId) : (collection.readProperties head).Asks := by
  cases head with
  | none => exact Action.asks_pure []
  | some head =>
      refine (asks_file .property).bind fun file => (RecordFile.asks_count file).bind fun limit => ?_
      refine asks_keyNames.bind fun keys => (asks_walk (fun id => ?_) _ _ _).bind fun _ => ?_
      · exact (asks_readInUse file id).bind fun record =>
          (Action.asks_mapM (asks_readBlock keys id)).bind fun _ => Action.asks_pure _
      · exact Action.asks_pure _

theorem asks_relationshipsOf (id : RecordId) (head : Option RecordId) :
    (collection.relationshipsOf id head).Asks := by
  refine (asks_file .relationship).bind fun file =>
    (RecordFile.asks_count file).bind fun limit => asks_walk (fun other => ?_) _ _ _
  exact (asks_readInUse file other).bind fun _ => Action.asks_pure _

end Collection

/-!
## Files that hold records
-/

namespace Site

variable {site : Site} {stores : Stores} {system : FileSystem}

theorem Holds.exists_isWhole (held : site.Holds stores system) (kind : StoreKind) :
    ∃ content, content.toList = fileBytes site.endian kind (stores kind) ∧
      site.collection.IsWhole system kind (.fresh kind site.endian) content
        (stores kind).length := by
  obtain ⟨⟨content, file, written⟩, faithful, short⟩ := held kind
  refine ⟨content, written, ⟨_, file⟩, ?_, ?_, Nat.lt_trans short (by decide)⟩
  · rw [written, fileBytes, List.take_left' (StoreHeader.length_encode _)]
    exact StoreHeader.decodeAs_fresh kind site.endian _
  · rw [written, length_fileBytes faithful, kind.recordSize_eq]

/-- What is found in files that hold records are their records in use. -/
theorem Holds.finds_iff (held : site.Holds stores system) {kind : StoreKind} {id : RecordId}
    {record : kind.Record} :
    site.collection.Finds system kind id record ↔
      (stores kind)[id.toNat]? = some record ∧ inUse record = true := by
  obtain ⟨content, written, whole⟩ := held.exists_isWhole kind
  have faithful := (held kind).faithful
  have slots {other : kind.Record} (stored : (stores kind)[id.toNat]? = some other) :
      decode site.endian (RecordFile.slot kind.Record content.toList id) = .ok other := by
    rw [written, RecordFile.slot_fileBytes faithful site.endian stored]
    exact (faithful other (List.mem_of_getElem? stored)).decode_encode site.endian
  constructor
  · intro found
    obtain ⟨header, otherContent, count, other, inside, decoded, taken⟩ := found
    obtain ⟨rfl, rfl, rfl⟩ := whole.unique other
    have stored := List.getElem?_eq_getElem inside
    have same : _ = Except.ok record := (slots stored).symm.trans decoded
    rw [← Except.ok.inj same]
    exact ⟨stored, by rw [Except.ok.inj same, taken]⟩
  · intro given
    obtain ⟨stored, taken⟩ := given
    obtain ⟨inside, -⟩ := List.getElem?_eq_some_iff.mp stored
    exact ⟨_, content, _, whole, inside, slots stored, taken⟩

end Site

/-- A collection by itself. -/
def loneSite (endian : Endian) : Site := ⟨⟨["c"]⟩, ["c"], endian⟩

/-- A file system with nothing but the files of a collection, which hold some records. -/
def systemOf (endian : Endian) (stores : Stores) : FileSystem :=
  ⟨(["c"], .directory) :: StoreKind.all.map fun kind =>
    (["c", kind.fileName], .file ⟨[.written (fileBytes endian kind (stores kind))]⟩)⟩

theorem holds_systemOf {endian : Endian} {stores : Stores}
    (faithful : ∀ kind, ∀ record ∈ stores kind, Faithful record)
    (short : ∀ kind, (stores kind).length < RecordFile.idLimit) :
    (loneSite endian).Holds stores (systemOf endian stores) := by
  intro kind
  refine ⟨⟨⟨[.written (fileBytes endian kind (stores kind))]⟩, ⟨?_, ?_⟩, ?_⟩, faithful kind,
    short kind⟩
  · cases kind <;> rfl
  · cases kind <;> rfl
  · exact List.append_nil _

end GraphStore
