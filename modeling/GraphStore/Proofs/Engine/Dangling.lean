import GraphStore.Engine.Relationships
import GraphStore.Proofs.Engine.Refusal

/-!
# Relationships that are refused

A relationship is checked before anything is written, but the heads of the chains that it joins are
not. Main statement: whatever the files hold, a relationship that is refused while there are numbers
for its records leaves the file system as it was, unless one of its nodes points at a relationship
that is not there.
-/

set_option autoImplicit false

namespace GraphStore

open StoredRecord

/-- How many records of a kind a relationship takes. The keys of its properties have a limit of
their own. -/
def Relationship.recordCount (relationship : Relationship) : StoreKind → Nat
  | .node => 0
  | .nodeId => 0
  | .label => 1
  | .property => sliceCount blocksPerRecord relationship.properties.length
  | .string => (relationship.properties.map fun property => property.value.textCount).sum
  | .relationship => 1
  | .array => 0
  | .index => 0

namespace Content

variable {content : Content} {offset count : Nat} {bytes : List UInt8}

theorem length_overwrite_inside (inside : offset + bytes.length ≤ content.toList.length) :
    (content.overwrite offset bytes).toList.length = content.toList.length := by
  rw [toList_overwrite]
  simp only [List.length_append, List.length_take, List.length_replicate, List.length_drop]
  omega

theorem take_overwrite_of_le (inside : offset + bytes.length ≤ content.toList.length)
    (before : count ≤ offset) :
    (content.overwrite offset bytes).toList.take count = content.toList.take count := by
  have short : count ≤ (content.toList.take offset).length := by
    rw [List.length_take]
    omega
  rw [toList_overwrite, List.append_assoc, List.append_assoc, List.take_append_of_le_length short,
    List.take_take, Nat.min_eq_left before]

end Content

variable {α β : Type}

namespace Opened

variable {opened : Opened} {counts before : Counts} {kind : StoreKind} {system last : FileSystem}

/-!
## Single records
-/

/-- Every record that is there is read, if there is no sequence of bytes that is none. -/
theorem completes_read {id : RecordId} (inside : id.toNat < counts kind)
    (total : ∀ endian bytes, bytes.length = size kind.Record →
      ∃ record : kind.Record, decode endian bytes = .ok record) :
    opened.Completes ((opened.file kind).read id) counts fun _ later => later = counts := by
  intro system sized
  obtain ⟨content, file, -, -, counted⟩ := sized.exists_counted kind
  have whole : (RecordFile.slot kind.Record content.toList id).length = size kind.Record := by
    rw [RecordFile.slot, List.length_take, List.length_drop, sized.length_eq file,
      RecordFile.offset]
    have fits : (id.toNat + 1) * size kind.Record ≤ counts kind * size kind.Record :=
      Nat.mul_le_mul_right _ inside
    rw [Nat.add_mul] at fits
    omega
  obtain ⟨record, decoded⟩ := total (opened.file kind).endian _ whole
  refine ⟨record, counts, system, ?_, sized, rfl⟩
  rw [RecordFile.runOn_read_of_lt file counted inside, decoded]

theorem completes_writeAt {id : RecordId} {record : kind.Record} (inside : id.toNat < counts kind)
    (width : ∀ endian, (encode endian record).length = size kind.Record) :
    opened.Completes ((opened.file kind).writeAt id record) counts fun _ later =>
      later = counts := by
  intro system sized
  obtain ⟨content, file, -, -, counted⟩ := sized.exists_counted kind
  have length := sized.length_eq file
  have slot : (id.toNat + 1) * size kind.Record ≤ counts kind * size kind.Record :=
    Nat.mul_le_mul_right _ inside
  rw [Nat.add_mul] at slot
  have inFile : RecordFile.offset kind.Record id +
      (encode (opened.file kind).endian record).length ≤ content.toList.length := by
    rw [width, length, RecordFile.offset]
    omega
  have refiled := sized.refile file
    (Content.take_overwrite_of_le inFile (Nat.le_add_right headerSize _))
    ((Content.length_overwrite_inside inFile).trans length) (sized kind).few
  rw [Function.update_eq_self] at refiled
  exact ⟨(), counts, _, RecordFile.runOn_writeAt_of_lt file counted inside record, refiled, rfl⟩

theorem runOn_read_outside {id : RecordId} (sized : opened.Sized counts system)
    (outside : counts kind ≤ id.toNat) :
    ((opened.file kind).read id).runOn system =
      (.error (.notFound
        s!"{kindName kind.Record} record {id} (store holds {counts kind})"), system) := by
  obtain ⟨content, file, -, -, counted⟩ := sized.exists_counted kind
  exact RecordFile.runOn_read_of_le file counted outside

/-!
## Failures behind the checks
-/

/-- Whether an action leaves the numbers of records as they are and fails for some reasons only. -/
def FailsOnly (opened : Opened) (action : Action α) (counts : Counts) (why : Error → Prop) : Prop :=
  ∀ system, opened.Sized counts system → ∃ outcome last,
    action.runOn system = (outcome, last) ∧ opened.Sized counts last ∧
      ∀ error, outcome = .error error → why error

variable {action : Action α} {next : α → Action β} {why : Error → Prop}

theorem Completes.failsOnly (completes : opened.Completes action counts fun _ later => later = counts) :
    opened.FailsOnly action counts why := by
  intro system sized
  obtain ⟨value, _, last, ran, lastSized, rfl⟩ := completes system sized
  exact ⟨.ok value, last, ran, lastSized, nofun⟩

theorem FailsOnly.bind (first : opened.FailsOnly action counts why)
    (rest : ∀ value, opened.FailsOnly (next value) counts why) :
    opened.FailsOnly (action >>= next) counts why := by
  intro system sized
  obtain ⟨outcome, middle, ran, middleSized, fails⟩ := first system sized
  cases outcome with
  | error error =>
      refine ⟨.error error, middle, Action.runOn_bind_of_error ran next, middleSized, ?_⟩
      intro reason same
      cases same
      exact fails error rfl
  | ok value =>
      rw [Action.runOn_bind_of_ok value middle ran]
      exact rest value middle middleSized

/-- What fails behind an action that completes fails where that action ends. -/
theorem Completes.exists_of_failed {fits : α → Counts → Prop} {error : Error}
    (completes : opened.Completes action before fits) (sized : opened.Sized before system)
    (failed : (action >>= next).runOn system = (.error error, last)) :
    ∃ value counts middle, fits value counts ∧ opened.Sized counts middle ∧
      (next value).runOn middle = (.error error, last) := by
  obtain ⟨value, counts, middle, ran, middleSized, fit⟩ := completes system sized
  rw [Action.runOn_bind_of_ok value middle ran] at failed
  exact ⟨value, counts, middle, fit, middleSized, failed⟩

theorem Gives.of_failed {value : α} {outcome : Except Error β × FileSystem}
    (given : opened.Gives action before value) (sized : opened.Sized before system)
    (ran : (action >>= next).runOn system = outcome) : (next value).runOn system = outcome := by
  rwa [Action.runOn_bind_of_ok value system (given system sized)] at ran

theorem FailsOnly.of_failed {error : Error} (fails : opened.FailsOnly action counts why)
    (sized : opened.Sized counts system) (failed : action.runOn system = (.error error, last)) :
    opened.Sized counts last ∧ why error := by
  obtain ⟨outcome, middle, ran, middleSized, reason⟩ := fails system sized
  rw [failed] at ran
  cases ran
  exact ⟨middleSized, reason error rfl⟩

theorem failsOnly_linkBack {node id : RecordId} {former : Option RecordId}
    (dangling : ∀ head, former = some head → counts .relationship ≤ head.toNat →
      why (.notFound s!"relationship record {head} (store holds {counts .relationship})")) :
    opened.FailsOnly (Collection.linkBack (opened.file .relationship) node former id) counts why := by
  cases former with
  | none => exact ((Gives.pure ()).completes rfl).failsOnly
  | some head =>
      by_cases inside : head.toNat < counts .relationship
      · have read : opened.Completes ((opened.file .relationship).read head) counts
            fun _ later => later = counts := completes_read inside fun endian bytes width => by
          rw [decode, if_pos width]
          exact ⟨_, rfl⟩
        exact read.failsOnly.bind fun record =>
          (completes_writeAt inside fun endian =>
            RelationshipRecord.length_encode _ endian).failsOnly
      · intro system sized
        have outside := Nat.le_of_not_lt inside
        refine ⟨_, system, Action.runOn_bind_of_error (runOn_read_outside sized outside) _, sized, ?_⟩
        intro error same
        cases same
        exact dangling head rfl outside

/-- The last steps of joining two nodes fail only at the heads of their chains. -/
theorem failsOnly_links {source target id : RecordId} {sourceRecord targetRecord : NodeRecord}
    {result : Relationship} (sourceInside : source.toNat < counts .node)
    (targetInside : target.toNat < counts .node)
    (sourceHead : ∀ head, sourceRecord.relationships = some head →
      counts .relationship ≤ head.toNat →
      why (.notFound s!"relationship record {head} (store holds {counts .relationship})"))
    (targetHead : ∀ head, targetRecord.relationships = some head →
      counts .relationship ≤ head.toNat →
      why (.notFound s!"relationship record {head} (store holds {counts .relationship})")) :
    opened.FailsOnly (do
      Collection.linkBack (opened.file .relationship) source sourceRecord.relationships id
      if source ≠ target then
        Collection.linkBack (opened.file .relationship) target targetRecord.relationships id
      (opened.file .node).writeAt source { sourceRecord with relationships := some id }
      if source ≠ target then
        (opened.file .node).writeAt target { targetRecord with relationships := some id }
      return result) counts why := by
  have writes {node : RecordId} (record : NodeRecord) (inside : node.toNat < counts .node) :
      opened.FailsOnly ((opened.file .node).writeAt node record) counts why :=
    (completes_writeAt inside fun endian => NodeRecord.length_encode _ endian).failsOnly
  have returns : opened.FailsOnly (pure result : Action Relationship) counts why :=
    ((Gives.pure result).completes rfl).failsOnly
  refine (failsOnly_linkBack sourceHead).bind fun _ => ?_
  dsimp only
  split
  · refine (failsOnly_linkBack targetHead).bind fun _ => ?_
    exact (writes _ sourceInside).bind fun _ => (writes _ targetInside).bind fun _ => returns
  · exact (writes _ sourceInside).bind fun _ => returns

end Opened

/-!
## Endpoints
-/

namespace Collection

variable {collection : Collection} {system last : FileSystem}

theorem asks_endpoint (nodes : RecordFile NodeRecord) (id : RecordId) :
    (endpoint nodes id).Asks := by
  intro system
  unfold endpoint
  cases outcome : ((nodes.readInUse id).trace system).1 with
  | ok record =>
      rw [Action.trace_tryCatch_of_ok outcome]
      exact asks_readInUse nodes id system
  | error error =>
      rw [Action.trace_tryCatch_of_error outcome, asks_readInUse nodes id system]
      cases error <;> rfl

/-- A node that serves as an endpoint is one that is read. -/
theorem readInUse_of_endpoint {nodes : RecordFile NodeRecord} {id : RecordId} {record : NodeRecord}
    (found : (endpoint nodes id).runOn system = (.ok record, last)) :
    (nodes.readInUse id).runOn system = (.ok record, last) := by
  rcases Action.runOn_or_of_runOn_tryCatch found with read | ⟨error, middle, -, handled⟩
  · exact read
  · cases error <;> cases handled

/-- Whether a node points behind all relationships that are there, given how many there are. -/
structure Dangles (collection : Collection) (id head : RecordId) (held : Nat)
    (system : FileSystem) : Prop where
  node : ∃ record, (do (← collection.nodes).readInUse id).runOn system = (.ok record, system) ∧
    record.relationships = some head
  counted : (do (← collection.relationships).count).runOn system = (.ok held, system)
  outside : held < head.toNat

/-- Whether an error says that the head of a chain is missing, once a relationship has been added. -/
def IsMissingHead (collection : Collection) (relationship : Relationship) (held : Nat)
    (system : FileSystem) (error : Error) : Prop :=
  ∃ id head, (id = relationship.source ∨ id = relationship.target) ∧
    collection.Dangles id head held system ∧
    error = .notFound s!"relationship record {head} (store holds {held + 1})"

end Collection

namespace Opened

variable {opened : Opened} {counts : Counts} {kind : StoreKind} {system : FileSystem}

theorem Sized.lt_of_readInUse {id : RecordId} {record : kind.Record}
    (sized : opened.Sized counts system)
    (read : ((opened.file kind).readInUse id).runOn system = (.ok record, system)) :
    id.toNat < counts kind := by
  by_contra outside
  have refused := Action.runOn_bind_of_error
    (runOn_read_outside sized (Nat.le_of_not_lt outside))
    fun record => if inUse record then pure record
      else throw (.notFound s!"{kindName kind.Record} record {id} is not in use")
  change ((opened.file kind).readInUse id).runOn system = _ at refused
  rw [refused] at read
  cases read

theorem Sized.runOn_count (sized : opened.Sized counts system) :
    (do (← opened.collection.relationships).count).runOn system =
      (.ok (counts .relationship), system) :=
  (gives_file .relationship).bind (gives_count .relationship) system sized

/-- What fails behind the checks fails at the head of a chain, with the relationship added. -/
theorem reason_of_failed {relationship : Relationship} {plan : PropertyPlan} {known : List String}
    {kindRecord : LabelRecord} {sourceRecord targetRecord : NodeRecord} {why : Error → Prop}
    {last : FileSystem} {error : Error} (sized : opened.Sized counts system)
    (enough : ∀ kind, counts kind + relationship.recordCount kind < RecordFile.idLimit)
    (made : LabelRecord.ofLabels (Collection.kindLabels relationship) = .ok kindRecord)
    (checked : plan.Checked known) (counted : known.length = counts .index)
    (values : plan.entries.map Prod.snd = relationship.properties.map Property.value)
    (near : 1 < plan.recordCount → counts .property + plan.recordCount ≤ Collection.shortIdLimit)
    (sourceInside : relationship.source.toNat < counts .node)
    (targetInside : relationship.target.toNat < counts .node)
    (sourceHead : ∀ head, sourceRecord.relationships = some head →
      counts .relationship + 1 ≤ head.toNat →
      why (.notFound s!"relationship record {head} (store holds {counts .relationship + 1})"))
    (targetHead : ∀ head, targetRecord.relationships = some head →
      counts .relationship + 1 ≤ head.toNat →
      why (.notFound s!"relationship record {head} (store holds {counts .relationship + 1})"))
    (failed : (do
      let kind ← (← opened.collection.labels).append kindRecord
      let properties ← opened.collection.writeProperties plan
      let file ← opened.collection.relationships
      let id ← file.append {
        inUse := true, first := relationship.source, second := relationship.target, kind
        firstPrevious := none, firstNext := sourceRecord.relationships
        secondPrevious := none, secondNext := targetRecord.relationships, properties }
      Collection.linkBack file relationship.source sourceRecord.relationships id
      if relationship.source ≠ relationship.target then
        Collection.linkBack file relationship.target targetRecord.relationships id
      (opened.file .node).writeAt relationship.source { sourceRecord with relationships := some id }
      if relationship.source ≠ relationship.target then
        (opened.file .node).writeAt relationship.target
          { targetRecord with relationships := some id }
      return { relationship with id := some id }).runOn system = (.error error, last)) :
    why error ∧ ∃ later, opened.Sized later last ∧
      later .relationship = counts .relationship + 1 := by
  have entryCount : plan.recordCount = relationship.recordCount .property := by
    have length := congrArg List.length values
    rw [List.length_map, List.length_map] at length
    rw [PropertyPlan.recordCount, length]
    rfl
  have textCount : (plan.entries.map fun entry => entry.2.textCount).sum =
      relationship.recordCount .string := by
    have counts := congrArg (fun values => (values.map PropertyValue.textCount).sum) values
    rwa [List.map_map, List.map_map] at counts
  have labelled : opened.Completes ((opened.file .label).append kindRecord) counts
      fun _ later => later = counts.grow .label 1 := by
    refine Opened.completes_appendAll (enough .label) ?_ rfl
    intro record member endian
    obtain rfl := List.mem_singleton.mp member
    exact (LabelRecord.faithful_of_ofLabels made).length_encode endian
  have planned : opened.Completes (opened.collection.writeProperties plan) (counts.grow .label 1)
      fun _ later => ∀ kind, kind ∉ planKinds → later kind = counts.grow .label 1 kind :=
    Opened.completes_plan checked (by simpa using counted) (by simpa using near)
      (by simpa [textCount] using enough .string) (by simpa [entryCount] using enough .property)
  have failed := (gives_file .label).of_failed sized failed
  obtain ⟨kind, _, _, rfl, sized, failed⟩ := labelled.exists_of_failed sized failed
  obtain ⟨properties, later, _, others, sized, failed⟩ := planned.exists_of_failed sized failed
  have failed := (gives_file .relationship).of_failed sized failed
  have sameRelationships : later .relationship = counts .relationship := by
    rw [others .relationship (by decide), Counts.grow_of_ne (by decide)]
  have added (record : RelationshipRecord) : opened.Completes
      ((opened.file .relationship).append record) later
      fun _ last => last = later.grow .relationship 1 := by
    refine Opened.completes_appendAll ?_ ?_ rfl
    · rw [sameRelationships]
      exact enough .relationship
    · exact fun record _ endian => RelationshipRecord.length_encode record endian
  obtain ⟨id, _, _, rfl, sized, failed⟩ := (added _).exists_of_failed sized failed
  have nodes : later.grow .relationship 1 .node = counts .node := by
    rw [Counts.grow_of_ne (by decide), others .node (by decide), Counts.grow_of_ne (by decide)]
  have held : later.grow .relationship 1 .relationship = counts .relationship + 1 := by
    rw [Counts.grow_self, sameRelationships]
  rw [← nodes] at sourceInside targetInside
  rw [← held] at sourceHead targetHead
  obtain ⟨lastSized, reason⟩ :=
    (failsOnly_links sourceInside targetInside sourceHead targetHead).of_failed sized failed
  exact ⟨reason, _, lastSized, held⟩

end Opened

/-- A relationship that is refused leaves no trace, whatever the files of its collection hold, unless
one of its nodes points behind the relationships that are there. Then the new one is left behind. -/
theorem Engine.createRelationship_error_changes_nothing_or_dangles {engine : Engine} {name : String}
    {relationship : Relationship} {system last : FileSystem} {error : Error}
    (failed : (engine.createRelationship name relationship).runOn system = (.error error, last))
    (room : (Collection.mk (engine.directory name)).HasRoomFor relationship.recordCount system) :
    last = system ∨ ∃ held,
      (Collection.mk (engine.directory name)).IsMissingHead relationship held system error ∧
      (do (← (Collection.mk (engine.directory name)).relationships).count).runOn last =
        (.ok (held + 1), last) := by
  unfold Engine.createRelationship at failed
  rcases (Action.asks_of _).same_or_of_runOn_bind failed with same | ⟨collection, found, created⟩
  · exact .inl same
  obtain rfl : collection = ⟨engine.directory name⟩ := by
    have listed : engine.collection name = .ok collection := congrArg Prod.fst found
    unfold Engine.collection at listed
    split at listed
    · exact (Except.ok.inj listed).symm
    · cases listed
  -- Each check either ends the work or passes, and all of them only ask.
  unfold Collection.createRelationship at created
  rcases (Collection.asks_file .node).same_or_of_runOn_bind created with
    same | ⟨nodes, openedNodes, created⟩
  · exact .inl same
  rcases (Collection.asks_endpoint _ _).same_or_of_runOn_bind created with
    same | ⟨sourceRecord, sourceRead, created⟩
  · exact .inl same
  rcases (Collection.asks_endpoint _ _).same_or_of_runOn_bind created with
    same | ⟨targetRecord, targetRead, created⟩
  · exact .inl same
  rcases (Action.asks_of _).same_or_of_runOn_bind created with same | ⟨_, _, created⟩
  · exact .inl same
  dsimp only at created
  split at created
  · exact .inl ((Action.asks_throw _).same created)
  rcases (Action.asks_of _).same_or_of_runOn_bind created with same | ⟨kindRecord, kinds, created⟩
  · exact .inl same
  rcases (Collection.asks_planProperties _).same_or_of_runOn_bind created with
    same | ⟨plan, planned, created⟩
  · exact .inl same
  rcases Collection.asks_verify.same_or_of_runOn_bind created with same | ⟨_, passed, written⟩
  · exact .inl same
  refine .inr ?_
  obtain ⟨opened, counts, here, sized⟩ := Collection.exists_sized_of_verify passed
  rw [← here] at openedNodes planned written room ⊢
  obtain rfl := sized.file_of_runOn openedNodes
  obtain ⟨known, checked, counted, values, near⟩ := sized.exists_checked planned
  have dangles {id head : RecordId} {record : NodeRecord}
      (isEnd : id = relationship.source ∨ id = relationship.target)
      (read : (Collection.endpoint (opened.file .node) id).runOn system = (.ok record, system))
      (points : record.relationships = some head) (outside : counts .relationship + 1 ≤ head.toNat) :
      opened.collection.IsMissingHead relationship (counts .relationship) system
        (.notFound s!"relationship record {head} (store holds {counts .relationship + 1})") := by
    refine ⟨id, head, isEnd, ⟨⟨record, ?_, points⟩, sized.runOn_count, outside⟩, rfl⟩
    exact (Action.runOn_bind_of_ok _ system (Opened.gives_file .node system sized) _).trans
      (Collection.readInUse_of_endpoint read)
  obtain ⟨missing, later, lastSized, held⟩ := Opened.reason_of_failed sized (sized.roomFor room)
    (congrArg Prod.fst kinds) checked counted values near
    (sized.lt_of_readInUse (Collection.readInUse_of_endpoint sourceRead))
    (sized.lt_of_readInUse (Collection.readInUse_of_endpoint targetRead))
    (fun _ => dangles (.inl rfl) sourceRead) (fun _ => dangles (.inr rfl) targetRead) written
  refine ⟨_, missing, ?_⟩
  rw [← held]
  exact lastSized.runOn_count

/-- The records of a collection with one node, which points at a relationship that is not there. -/
def danglingRecords : Stores
  | .node => [{ inUse := true, labels := none, relationships := some 5, properties := none }]
  | .nodeId => [{ inUse := true, node := 0 }]
  | _ => []

def danglingFilms : FileSystem :=
  ⟨[(["data"], .directory), (["data", "films"], .directory)] ++
    StoreKind.all.map fun kind =>
      (["data", "films", kind.fileName],
        .file (Content.empty.append (fileBytes .little kind (danglingRecords kind))))⟩

theorem hasRoomFor_danglingFilms :
    (Collection.mk (films.directory "films")).HasRoomFor
      (Relationship.between 0 0 "KNOWS").recordCount danglingFilms := by
  have each : ∀ kind ∈ StoreKind.all,
      (danglingFilms.content ((Collection.mk (films.directory "films")).pathOf kind)).toOption.all
        (fun bytes => (bytes.length - headerSize) / kind.recordSize +
          (Relationship.between 0 0 "KNOWS").recordCount kind < RecordFile.idLimit) = true := by
    decide +kernel
  intro kind bytes read
  have here := each kind kind.mem_all
  rw [read] at here
  exact of_decide_eq_true here

/-- Where the head of a chain is missing, the failure of the call does not undo what it has
written. -/
theorem createRelationship_dangling_leaves_label :
    (Collection.mk (films.directory "films")).HasRoomFor
        (Relationship.between 0 0 "KNOWS").recordCount danglingFilms ∧
      ((films.createRelationship "films" (.between 0 0 "KNOWS")).runOn danglingFilms).1 =
        .error (.notFound "relationship record 5 (store holds 1)") ∧
      ((films.createRelationship "films" (.between 0 0 "KNOWS")).runOn danglingFilms).2.content
          ["data", "films", "labels.store"] ≠
        danglingFilms.content ["data", "films", "labels.store"] :=
  ⟨hasRoomFor_danglingFilms, by decide +kernel⟩

theorem createRelationship_dangling_misses_head :
    (Collection.mk (films.directory "films")).HasRoomFor
        (Relationship.between 0 0 "KNOWS").recordCount danglingFilms ∧
      ∃ held, (Collection.mk (films.directory "films")).IsMissingHead (.between 0 0 "KNOWS") held
        danglingFilms (.notFound "relationship record 5 (store holds 1)") := by
  have failed : ((films.createRelationship "films" (.between 0 0 "KNOWS")).runOn danglingFilms).1 =
      .error (.notFound "relationship record 5 (store holds 1)") := by decide +kernel
  have changed : ((films.createRelationship "films" (.between 0 0 "KNOWS")).runOn danglingFilms).2 ≠
      danglingFilms := by
    intro same
    have bytes := congrArg (·.content ["data", "films", "labels.store"]) same
    revert bytes
    decide +kernel
  cases ran : (films.createRelationship "films" (.between 0 0 "KNOWS")).runOn danglingFilms with
  | mk outcome last =>
      rw [ran] at failed changed
      obtain rfl : outcome = .error (.notFound "relationship record 5 (store holds 1)") := failed
      rcases Engine.createRelationship_error_changes_nothing_or_dangles ran
        hasRoomFor_danglingFilms with same | ⟨held, missing, _⟩
      · exact absurd same changed
      · exact ⟨hasRoomFor_danglingFilms, held, missing⟩

end GraphStore
