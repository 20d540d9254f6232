import GraphStore.Proofs.Graph.Numbered
import GraphStore.Proofs.Json.Reading
import GraphStore.Proofs.Time.Timestamp
import GraphStore.Wire.Client

/-!
# Reading responses

Every record is read from the document that was written for it, and so is a response whose time and
whose place of a fault are in range.
-/

set_option autoImplicit false

namespace GraphStore

open Text

namespace Json

/-- Whether a document stands for a value: it can be written and is read as the value. -/
structure Carries {α : Type} (read? : Json → Option α) (json : Json) (value : α) : Prop where
  plain : json.IsPlain
  reads : read? json = some value

section

variable {α : Type} {read? : Json → Option α} {encode : α → Json}

theorem carries_ofString (text : String) : Carries string? (.ofString text) text :=
  ⟨.ofString text, JsonText.value?_ofString text⟩

theorem carries_ofNat {bound value : Nat} (inRange : bound ≤ 2 ^ 64) (small : value < bound) :
    Carries (natBelow? bound) (.ofNat value) value := by
  refine ⟨.integer (by simp; omega), ?_⟩
  simp [ofNat, natBelow?, below?, small]

theorem carries_recordId (id : RecordId) : Carries recordId? (.ofNat id.toNat) id := by
  have isNumber : Carries (natBelow? 0x100000000) (.ofNat id.toNat) id.toNat :=
    carries_ofNat (by decide) id.toNat_lt
  refine ⟨isNumber.plain, ?_⟩
  rw [recordId?, isNumber.reads, Option.map_some, UInt32.ofNat_toNat]

theorem carries_ofList {items : List α} (each : ∀ item ∈ items, Carries read? (encode item) item) :
    Carries (list? read?) (.ofList encode items) items := by
  constructor
  · exact .array (List.forall_mem_map.mpr fun item member => (each item member).plain)
  · rw [ofList, list?]
    induction items with
    | nil => rfl
    | cons item others ih =>
        obtain ⟨here, behind⟩ := List.forall_mem_cons.mp each
        rw [List.map_cons, List.mapM_cons, here.reads, ih behind]
        rfl

/-- A value that may be missing is read, if it is never written as `null` itself. -/
theorem reads_optional (option : Option α)
    (each : ∀ value ∈ option, Carries read? (encode value) value ∧ encode value ≠ .null) :
    optional? read? (option.map encode) = some option := by
  cases option with
  | none => rfl
  | some value =>
      obtain ⟨carries, notNull⟩ := each value rfl
      simp only [Option.map_some, optional?]
      rw [nullable?, carries.reads]
      · rfl
      · exact notNull

theorem carries_ofOption (option : Option α)
    (each : ∀ value ∈ option, Carries read? (encode value) value ∧ encode value ≠ .null) :
    Carries (fun json => optional? read? (some json)) (ofOption encode option) option := by
  cases option with
  | none => exact ⟨.null, rfl⟩
  | some value => exact ⟨(each value rfl).1.plain, reads_optional (some value) each⟩

/-- The members of an object are found under their names. -/
theorem fields?_ofMembers (names : List String) (members : List (String × Json)) :
    (ofMembers members).fields? names = names.mapM fun name => unique? name members := by
  have named : (members.map fun member => (JsonText.ofString member.1, member.2)).mapM
      (fun member => member.1.value?.map (·, member.2)) = some members := by
    induction members with
    | nil => rfl
    | cons member others ih =>
        rw [List.map_cons, List.mapM_cons, ih, JsonText.value?_ofString]
        rfl
  rw [ofMembers, fields?, named]
  rfl

end

end Json

open Json

theorem PropertyValue.carries_toJson (value : PropertyValue) :
    Carries PropertyValue.ofJson? value.toJson value := by
  cases value with
  | bool value => exact ⟨.bool value, rfl⟩
  | int value =>
      have least := value.le_toInt
      have greatest := value.toInt_lt
      refine ⟨.integer (by omega), ?_⟩
      rw [toJson, ofJson?, int64?_toInt, Option.map_some]
  | text value =>
      refine ⟨.ofString value, ?_⟩
      rw [toJson, Json.ofString, ofJson?, JsonText.value?_ofString, Option.map_some]

theorem Property.carries_toJson (property : Property) :
    Carries Property.ofJson? property.toJson property := by
  have key := carries_ofString property.key
  have value := property.value.carries_toJson
  constructor
  · exact .ofMembers (by simp [key.plain, value.plain])
  · simp [toJson, ofJson?, fields?_ofMembers, unique?, key.reads, value.reads]

theorem carries_optionalText (option : Option String) :
    Carries (fun json => optional? string? (some json)) (.ofOption .ofString option) option :=
  carries_ofOption option fun text _ => ⟨carries_ofString text, nofun⟩

theorem carries_optionalId (option : Option RecordId) :
    Carries (fun json => optional? recordId? (some json))
      (.ofOption (fun id => .ofNat id.toNat) option) option :=
  carries_ofOption option fun id _ => ⟨carries_recordId id, nofun⟩

theorem carries_properties (properties : List Property) :
    Carries (list? Property.ofJson?) (.ofList Property.toJson properties) properties :=
  carries_ofList fun property _ => property.carries_toJson

theorem Node.carries_toJson (node : Node) : Carries Node.ofJson? node.toJson node := by
  have id := carries_optionalId node.id
  have name := carries_optionalText node.name
  have labels := carries_ofList fun label (_ : label ∈ node.labels) => carries_ofString label
  have properties := carries_properties node.properties
  have relationships := carries_ofList fun id (_ : id ∈ node.relationships) => carries_recordId id
  constructor
  · exact .ofMembers
      (by simp [id.plain, name.plain, labels.plain, properties.plain, relationships.plain])
  · simp [toJson, ofJson?, fields?_ofMembers, unique?, id.reads, name.reads, labels.reads,
      properties.reads, relationships.reads]

theorem Relationship.carries_toJson (relationship : Relationship) :
    Carries Relationship.ofJson? relationship.toJson relationship := by
  have id := carries_optionalId relationship.id
  have source := carries_recordId relationship.source
  have target := carries_recordId relationship.target
  have kind := carries_ofString relationship.kind
  have label := carries_optionalText relationship.label
  have properties := carries_properties relationship.properties
  constructor
  · exact .ofMembers
      (by simp [id.plain, source.plain, target.plain, kind.plain, label.plain, properties.plain])
  · simp [toJson, ofJson?, fields?_ofMembers, unique?, id.reads, source.reads, target.reads,
      kind.reads, label.reads, properties.reads]

/-!
## Graphs
-/

namespace ById

variable {α : Type} {read? : Json → Option α} {encode : α → Json}

/-- A reader that puts in each entry puts in all of them, one after the other. -/
theorem foldlM_insert {step : ById α → JsonText × Json → Option (ById α)}
    {member : RecordId × α → JsonText × Json} {entries : List (RecordId × α)}
    (puts : ∀ front, ∀ entry ∈ entries, step front (member entry) =
      some (front.insert entry.1 entry.2)) (front : ById α) :
    (entries.map member).foldlM step front =
      some (entries.foldl (fun values entry => values.insert entry.1 entry.2) front) := by
  induction entries generalizing front with
  | nil => rfl
  | cons entry rest ih =>
      rw [List.map_cons, List.foldlM_cons, puts front entry List.mem_cons_self, List.foldl_cons]
      exact ih (fun front other behind => puts front other (List.mem_cons_of_mem _ behind)) _

theorem carries_toJson (values : ById α)
    (each : ∀ entry ∈ values.entries, Carries read? (encode entry.2) entry.2) :
    Carries (ById.ofJson? read?) (values.toJson encode) values := by
  constructor
  · exact .ofMembers (List.forall_mem_map.mpr fun entry member => (each entry member).plain)
  · rw [toJson, ofMembers, ofJson?, List.map_map]
    conv_rhs => rw [← foldl_insert_entries values]
    refine foldlM_insert (fun front entry member => ?_) empty
    simp only [Function.comp_apply, JsonText.written_ofString_toString, parseDigits?_toDigits,
      startsWithZero_toDigits, (each entry member).reads, below?]
    simp [entry.1.toNat_lt]

end ById

theorem Graph.carries_toJson (graph : Graph) : Carries Graph.ofJson? graph.toJson graph := by
  have nodes := graph.nodes.carries_toJson fun entry _ => entry.2.carries_toJson
  have relationships := graph.relationships.carries_toJson fun entry _ => entry.2.carries_toJson
  constructor
  · exact .ofMembers (by simp [nodes.plain, relationships.plain])
  · simp [toJson, ofJson?, fields?_ofMembers, unique?, nodes.reads, relationships.reads]

/-!
## Responses
-/

theorem Payload.carries_toJson (payload : Payload) :
    Carries Payload.ofJson? payload.toJson payload := by
  have typed : ∀ (type : String) (value : Json) (payload : Payload), value.IsPlain →
      ofTyped? type value = some payload →
      Carries Payload.ofJson? (.ofMembers [("type", .ofString type), ("value", value)]) payload := by
    intro type value payload plain reads
    have name := carries_ofString type
    refine ⟨.ofMembers (by simp [name.plain, plain]), ?_⟩
    have chosen : (Json.ofString type).choice? = some type := JsonText.value?_ofString type
    have first : typeComesFirst (.ofMembers [("type", .ofString type), ("value", value)]) = true := by
      simp [typeComesFirst, ofMembers, JsonText.value?_ofString]
    simp [ofJson?, fields?_ofMembers, unique?, chosen, reads, first]
  cases payload with
  | node node =>
      exact typed _ _ _ node.carries_toJson.plain (by simp [ofTyped?, node.carries_toJson.reads])
  | relationship relationship =>
      exact typed _ _ _ relationship.carries_toJson.plain
        (by simp [ofTyped?, relationship.carries_toJson.reads])
  | graph graph =>
      exact typed _ _ _ graph.carries_toJson.plain (by simp [ofTyped?, graph.carries_toJson.reads])

/-- Whether the place of a fault can be told in numbers of 64 bits. -/
structure Position.IsInRange (position : Position) : Prop where
  line : position.line < 2 ^ 64
  column : position.column < 2 ^ 64

theorem Position.IsInRange.carries_toJson {position : Position} (inRange : position.IsInRange) :
    Carries Position.ofJson? position.toJson position := by
  have line := carries_ofNat (Nat.le_refl _) inRange.line
  have column := carries_ofNat (Nat.le_refl _) inRange.column
  constructor
  · exact .ofMembers (by simp [line.plain, column.plain])
  · have readsLine := line.reads
    have readsColumn := column.reads
    norm_num at readsLine readsColumn
    simp [toJson, ofJson?, fields?_ofMembers, unique?, readsLine, readsColumn]

namespace Response

/-- Whether a response can be read where it is received: its time and the place of its fault are in
range. -/
structure IsReadable (response : Response) : Prop where
  timestamp : response.timestamp.IsProper
  position : ∀ position ∈ response.position, position.IsInRange

variable {response : Response}

theorem fields?_toJson (response : Response) :
    response.toJson.fields? ["success", "message", "result", "error", "code", "timestamp"] =
      some [some (.bool response.success), some (.ofString response.message),
        response.result.map Payload.toJson, response.position.map Position.toJson,
        response.code.map .ofString, some (.ofString response.timestamp.text)] := by
  obtain ⟨success, message, result, position, code, timestamp⟩ := response
  cases result <;> cases position <;> cases code <;>
    simp [toJson, members, fields?_ofMembers, unique?]

theorem IsReadable.carries_toJson (readable : response.IsReadable) :
    Carries Response.ofJson? response.toJson response := by
  have message := carries_ofString response.message
  have result := reads_optional response.result fun payload _ =>
    ⟨payload.carries_toJson, by cases payload <;> nofun⟩
  have position := reads_optional response.position fun position member =>
    ⟨(readable.position position member).carries_toJson, nofun⟩
  have code := reads_optional response.code fun code _ => ⟨carries_ofString code, nofun⟩
  have time := carries_ofString response.timestamp.text
  constructor
  · refine .ofMembers ?_
    have each : (∀ payload, response.result = some payload → payload.toJson.IsPlain) ∧
        (∀ position, response.position = some position → position.toJson.IsPlain) ∧
        ∀ code, response.code = some code → (Json.ofString code).IsPlain :=
      ⟨fun payload _ => payload.carries_toJson.plain,
        fun position member => (readable.position position member).carries_toJson.plain,
        fun code _ => .ofString code⟩
    simpa [members, or_imp, forall_and, IsPlain.bool, message.plain, time.plain] using each
  · simp [ofJson?, fields?_toJson, bool?, message.reads, result, position, code, time.reads,
      readable.timestamp.parse?_text]

/-- The line of a response is on one line, and the response is read from it. -/
theorem IsReadable.read_line (readable : response.IsReadable) :
    (∀ c ∈ response.line.toList, 0x20 ≤ c.toNat) ∧
      Client.read (.text response.line) = .ok response := by
  have carries := readable.carries_toJson
  constructor
  · rw [line, render, String.toList_ofList]
    exact carries.plain.isPrinted
  · rw [Client.read, line, carries.plain.parse?_render, Option.bind_some, carries.reads]

end Response

end GraphStore
