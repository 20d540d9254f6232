import GraphStore.Proofs.Collection.Plans

/-!
# Property lists at any time

The states of the files of a collection behind any work on its records. Main statement: in each of
them a list of properties that is planned can be written and read back, and every list that could be
read stays as it was.
-/

set_option autoImplicit false

namespace GraphStore

namespace Collection

/-- The records in a file of a collection, in the order of their numbers. -/
def records (collection : Collection) (kind : StoreKind) : Action (List kind.Record) := do
  (← collection.file kind.Record kind).readAll

/-- Work on the records of a collection. Plans may be of any other time. -/
inductive Write where
  | addLabels (labels : List String)
  | addBlocks (blocks : List PropertyBlock)
  | addNode (labels properties : Option RecordId)
  | addRelationship (record : RelationshipRecord)
  | writeText (text : String)
  | writeProperties (plan : PropertyPlan)
  | append (kind : StoreKind) (records : List kind.Record)
      (writable : ∀ record ∈ records, Writable record)
  | overwrite (kind : StoreKind) (id : RecordId) (record : kind.Record) (writable : Writable record)

def Write.action (collection : Collection) : Write → Action Unit
  | addLabels labels => do let _ ← collection.addLabels labels
  | addBlocks blocks => do let _ ← collection.addBlocks blocks
  | addNode labels properties => do let _ ← collection.addNode labels properties
  | addRelationship record => do let _ ← collection.addRelationship record
  | writeText text => do let _ ← collection.writeText text
  | writeProperties plan => do let _ ← collection.writeProperties plan
  | append kind records _ => do
      let _ ← (← collection.file kind.Record kind).appendAll records
  | overwrite kind id record _ => do (← collection.file kind.Record kind).writeAt id record

end Collection

open Collection (Write)

namespace Site

variable {site : Site} {system last : FileSystem}

/-- The file systems behind work on the records of a collection whose files were made in its
directory. Work may fail, and may stop behind any of its changes. -/
inductive Built (site : Site) : FileSystem → Prop where
  | made {order : List Collection.Making} (isOrder : Collection.IsMakingOrder order)
      {system later : FileSystem} (stands : site.Stands system)
      (made : (site.collection.makeFilesIn order site.endian).runOn system = (.ok (), later)) :
      Built site later
  | written {system : FileSystem} (former : Built site system) (write : Write) :
      Built site ((write.action site.collection).runOn system).2
  | stopped {system : FileSystem} (former : Built site system) (write : Write) (count : Nat) :
      Built site ((write.action site.collection).outcome.interrupted count system)

/-!
## What the files hold
-/

/-- The files hold records behind all work, whatever these are. -/
theorem maintains_write (write : Write) :
    site.Maintains (fun _ => True) (write.action site.collection) := by
  have ignores : ∀ kind, Stores.Ignores (fun _ => True) kind := fun _ _ _ _ => trivial
  cases write with
  | addLabels labels =>
      refine Maintains.bind (.of_bind fun record made => ?_) fun _ => .pure ()
      exact maintains_addLabel (ignores .label) (LabelRecord.faithful_of_ofLabels made).writable
  | addBlocks blocks =>
      refine Maintains.bind (.of_bind fun record _ => .open_bind .property ?_) fun _ => .pure ()
      exact maintains_append (ignores .property) (PropertyRecord.writable record)
  | addNode labels properties =>
      exact (maintains_addNode (ignores .node) (ignores .nodeId) labels properties).bind
        fun _ => .pure ()
  | addRelationship record =>
      exact (maintains_addRelationship (ignores .relationship) record).bind fun _ => .pure ()
  | writeText text => exact (maintains_writeText (ignores .string) text).bind fun _ => .pure ()
  | writeProperties plan =>
      exact (maintains_writeProperties (ignores .index) (ignores .string) (ignores .property)
        plan).bind fun _ => .pure ()
  | append kind records writable =>
      exact .open_bind kind ((maintains_appendAll (ignores kind) writable).bind fun _ => .pure ())
  | overwrite kind id record writable =>
      exact .open_bind kind (maintains_writeAt (ignores kind) id writable)

theorem Built.exists_holds (built : site.Built system) : ∃ stores, site.Holds stores system := by
  induction built with
  | made isOrder stands made => exact ⟨.empty, (holds_empty_of_makeFilesIn isOrder stands made).1⟩
  | written _ write ih =>
      obtain ⟨before, held⟩ := ih
      obtain ⟨stores, laterHeld, -, -⟩ := (maintains_write write before trivial).runOn held
      exact ⟨stores, laterHeld⟩
  | stopped _ write count ih =>
      obtain ⟨before, held⟩ := ih
      obtain ⟨stores, laterHeld, -, -⟩ :=
        (maintains_write write before trivial).interrupted held count
      exact ⟨stores, laterHeld⟩

theorem Holds.records_eq {stores : Stores} (held : site.Holds stores system) (kind : StoreKind) :
    (site.collection.records kind).runOn system = (.ok (stores kind), system) :=
  ((yields_openAs kind).bind (yields_readAll kind)).runOn_eq held

/-!
## Writing succeeds
-/

theorem Holds.exists_writeProperties {stores : Stores} {plan : PropertyPlan}
    {properties : List Property} (held : site.Holds stores system)
    (added : PropertyPlan.addAll stores.keys [] ⟨[], []⟩ properties = .ok plan)
    (near : 1 < plan.recordCount →
      (stores .property).length + plan.recordCount ≤ Collection.shortIdLimit)
    (fits : plan.FitsIn stores) :
    ∃ head later, (site.collection.writeProperties plan).runOn system = (.ok head, later) := by
  have checked := (PropertyPlan.checked_empty stores.keys).addAll added
  have completes : site.opened.Completes _ (fun kind => (stores kind).length) _ :=
    Opened.completes_plan checked (List.length_map _) near fits.texts fits.properties
  obtain ⟨head, _, later, ran, -, -⟩ := completes system held.sized
  exact ⟨head, later, ran⟩

/-- In whatever state work on its records has left a collection, a list of properties that is planned
there and for whose records there are numbers is written. Exactly its new keys and its records are
added, and texts; the records are neighbours, linked in both directions; the list is read back as it
was given; and so is every other list that could be read before. -/
theorem Built.carries_out_plans (built : site.Built system) {properties : List Property}
    {plan : PropertyPlan}
    (planned : (site.collection.planProperties properties).runOn system = (.ok plan, last)) :
    last = system ∧ ∃ before : Stores,
      (∀ kind, (site.collection.records kind).runOn system = (.ok (before kind), system)) ∧
      (plan.FitsIn before → ∃ head later stores,
        (site.collection.writeProperties plan).runOn system = (.ok head, later) ∧
        (∀ kind, (site.collection.records kind).runOn later = (.ok (stores kind), later)) ∧
        plan.Carried properties head before stores ∧
        (site.collection.readProperties head).runOn later = (.ok properties, later) ∧
        ∀ former listed,
          (site.collection.readProperties former).runOn system = (.ok listed, system) →
          (site.collection.readProperties former).runOn later = (.ok listed, later)) := by
  obtain ⟨before, held⟩ := built.exists_holds
  rcases @yields_planProperties site before properties with
    ⟨error, refused⟩ | ⟨same, given, plans, added, near⟩
  · rw [refused.runOn_eq held] at planned
    cases planned
  rw [given.runOn_eq held] at planned
  cases planned
  refine ⟨rfl, before, held.records_eq, fun fits => ?_⟩
  obtain ⟨head, later, ran⟩ := held.exists_writeProperties added near fits
  have written : site.Ensures (site.collection.writeProperties plan) before _ _ :=
    (enriching_writeProperties plans).and (enriching_writeProperties_carried added plans)
  obtain ⟨stores, laterHeld, -, ends⟩ := written.runOn held
  rw [ran] at laterHeld ends
  obtain ⟨⟨enriched, begins⟩, -, carried⟩ := ends
  refine ⟨head, later, stores, ran, laterHeld.records_eq, carried head rfl, ?_, ?_⟩
  · exact (yields_readProperties (begins head rfl).2).runOn_eq laterHeld
  · intro former listed read
    obtain ⟨-, stood⟩ := tells_readProperties former system held listed system read
    exact (yields_readProperties (stood.grown enriched.grows)).runOn_eq laterHeld

/-!
## A small collection
-/

def smallSite : Site := ⟨⟨["c"]⟩, ["c"], .big⟩

/-- A file system with a collection that has one list of properties. -/
def smallSystem : FileSystem :=
  let made := (smallSite.collection.makeFilesIn Collection.makingOrder .big).runOn
    ⟨[(["c"], .directory)]⟩
  let write : Write := .writeProperties ⟨["k"], [(0, .bool true)]⟩
  ((write.action smallSite.collection).runOn made.2).2

theorem built_smallSystem : smallSite.Built smallSystem := by
  have stands : smallSite.Stands ⟨[(["c"], .directory)]⟩ := by
    refine ⟨by decide +kernel, fun above isAbove => ?_⟩
    rcases List.prefix_cons_iff.mp isAbove with rfl | ⟨rest, rfl, isRest⟩
    · rfl
    · rw [List.prefix_nil.mp isRest]
      decide +kernel
  have isOrder := Collection.MakingOrder.oneByOne.isOrder
  exact .written (.made isOrder stands (Prod.ext (eq_ok_of_toOption (by decide +kernel)) rfl)) _

/-- A list with an old key, four new ones and texts, one of them too long for one record. -/
def mixedProperties : List Property :=
  [⟨"l", .text ("".pushn 'x' 60)⟩, ⟨"k", .int (-3)⟩, ⟨"m", .text ""⟩, ⟨"n", .bool false⟩,
    ⟨"o", .int 34359738367⟩]

def mixedPlan : PropertyPlan :=
  ⟨["l", "m", "n", "o"], [(1, .text ("".pushn 'x' 60)), (0, .int (-3)), (2, .text ""),
    (3, .bool false), (4, .int 34359738367)]⟩

private theorem eq_pair_of_fst {α β : Type} {pair : α × β} {first : α} (same : pair.1 = first) :
    pair = (first, pair.2) := by
  rw [← same]

/-- A list that takes two records is written behind another one. -/
theorem carries_out_plans_mixed :
    ∃ head later,
      smallSite.Built smallSystem ∧
      (smallSite.collection.planProperties mixedProperties).runOn smallSystem =
        (.ok mixedPlan, smallSystem) ∧
      mixedPlan.recordCount = 2 ∧
      (smallSite.collection.writeProperties mixedPlan).runOn smallSystem = (.ok head, later) ∧
      head.map UInt32.toNat = some 1 ∧
      (smallSite.collection.readProperties head).runOn later = (.ok mixedProperties, later) ∧
      (smallSite.collection.readProperties (some 0)).runOn later =
        (.ok [⟨"k", .bool true⟩], later) := by
  have accepted : ((smallSite.collection.planProperties mixedProperties).runOn smallSystem).1 =
      .ok mixedPlan := eq_ok_of_toOption (by decide +kernel)
  have formerRead : ((smallSite.collection.readProperties (some 0)).runOn smallSystem).1 =
      .ok [⟨"k", .bool true⟩] := eq_ok_of_toOption (by decide +kernel)
  have planned := eq_pair_of_fst accepted
  obtain ⟨same, before, records, carries⟩ := built_smallSystem.carries_out_plans planned
  have counted : ∀ kind, (((smallSite.collection.records kind).runOn smallSystem).1.toOption.getD
      []).length = (before kind).length := by
    intro kind
    rw [records kind]
    rfl
  have texts : (before .string).length = 0 := by
    rw [← counted]
    decide +kernel
  have count : (before .property).length = 1 := by
    rw [← counted]
    decide +kernel
  obtain ⟨head, later, stores, wrote, -, carried, readBack, others⟩ := carries
    ⟨by rw [texts]; decide +kernel, by rw [count]; decide +kernel⟩
  have number := carried.head
  rw [count] at number
  rw [same] at planned
  obtain ⟨_, held⟩ := built_smallSystem.exists_holds
  have former := eq_pair_of_fst formerRead
  obtain ⟨kept, -⟩ := tells_readProperties (some 0) smallSystem held _ _ former
  rw [kept] at former
  exact ⟨head, later, built_smallSystem, planned, rfl, wrote, number, readBack, others _ _ former⟩

end Site

end GraphStore
