import GraphStore.Proofs.Collection.Answers
import GraphStore.Proofs.Collection.Keeping
import GraphStore.Proofs.Collection.Ownership

/-!
# Plans that are carried out

Main statement: where the files of a collection hold some records, whatever these are, a list of
properties that was planned is written as long as there are numbers for its records. Its new keys and
its records are added, and nothing else but texts; it is read back; and so is every list that could
be read before.
-/

set_option autoImplicit false

namespace GraphStore

/-!
## Records that are added for a plan
-/

/-- Whether the records of a list of properties were added, linked in both directions. -/
def Strung (count : Nat) (before stores : List PropertyRecord) : Prop :=
  ∃ run, stores = before ++ run ∧ run.length = count ∧
    PointsOn (fun record => record.next.map UInt16.toNat) before.length run ∧
    PointsBack (fun record => record.previous.map UInt16.toNat) before.length run

theorem Strung.nothing (records : List PropertyRecord) : Strung 0 records records :=
  ⟨[], (List.append_nil records).symm, rfl, nofun, nofun⟩

/-- What the records are when a list of properties was written as planned. -/
structure PropertyPlan.Carried (plan : PropertyPlan) (listed : List Property)
    (head : Option RecordId) (before stores : Stores) : Prop where
  keys : ∃ records, plan.newKeys.mapM KeyRecord.ofName = .ok records ∧
    stores .index = before .index ++ records
  properties : Strung plan.recordCount (before .property) (stores .property)
  head : head.map UInt32.toNat = if listed.isEmpty then none else some (before .property).length
  texts : before .string <+: stores .string
  others : ∀ kind, kind ∉ planKinds → stores kind = before kind

/-- Whether there are numbers for what is added for a plan. -/
structure PropertyPlan.FitsIn (plan : PropertyPlan) (stores : Stores) : Prop where
  texts : (stores .string).length + (plan.entries.map fun entry => entry.2.textCount).sum <
    RecordFile.idLimit
  properties : (stores .property).length + plan.recordCount < RecordFile.idLimit

namespace Site

variable {site : Site} {α : Type} {before stores : Stores} {plan : PropertyPlan}
  {listed : List Property}

theorem Enriching.and_maintains {action : Action α} {gives : α → Stores → Prop}
    {held : Stores → Prop} (enriching : site.Enriching action before gives)
    (maintains : site.Maintains held action) (holds : held before) :
    site.Enriching action before fun value stores => gives value stores ∧ held stores := by
  refine (Ensures.and enriching (maintains before holds)).imp (fun _ passing => passing.1) ?_
  intro outcome stores ended
  obtain ⟨⟨enriched, fits⟩, kept⟩ := ended
  exact ⟨enriched, fun value same => ⟨fits value same, kept⟩⟩

private theorem isEmpty_of_packs {entries : List (Nat × PropertyValue)}
    {blocks : List PropertyBlock}
    (packs : List.Forall₂ (fun entry block => Packs stores entry block) entries blocks) :
    ∀ block ∈ blocks, block.isEmpty = false := by
  induction packs with
  | nil => exact nofun
  | cons here _ ih => exact List.forall_mem_cons.mpr ⟨here.value.isEmpty, ih⟩

/-- What follows the keys adds texts and the records of the list, and nothing else. -/
theorem enriching_writeEntries_strung (filled : plan.entries ≠ []) :
    site.Enriching (do
        let blocks ← plan.entries.mapM fun entry => site.collection.writeValue entry.1 entry.2
        let file ← site.collection.properties
        let first ← file.count
        let records ← Action.of
          (Collection.propertyRecords first 0 (slices blocksPerRecord plan.recordCount blocks))
        return some (← file.appendAll records)) before fun head stores =>
      Strung plan.recordCount (before .property) (stores .property) ∧
        head.map UInt32.toNat = some (before .property).length ∧
        ∀ kind, kind ≠ .string → kind ≠ .property → stores kind = before kind := by
  have values : site.Maintains (fun stores => ∀ kind, kind ≠ .string → stores kind = before kind)
      (plan.entries.mapM fun entry => site.collection.writeValue entry.1 entry.2) := by
    refine .mapM fun entry _ => maintains_writeValue ?_ entry.1 entry.2
    intro stores records same kind different
    rw [Stores.set_of_ne stores different, same kind different]
  refine ((enriching_writeValues plan.entries).and_maintains values fun _ _ => rfl).bind
    fun blocks middle _ ended => ?_
  obtain ⟨packs, same⟩ := ended
  have width := packs.length_eq
  have needed : plan.recordCount = sliceCount blocksPerRecord blocks.length := by
    rw [← width, PropertyPlan.recordCount]
  have several : blocks ≠ [] := by
    rw [← List.length_pos_iff, ← width]
    exact List.length_pos_iff.mpr filled
  refine (yields_openAs .property).bind_ensures ((yields_count .property).bind_ensures ?_)
  refine Enriching.of_bind fun records made => ?_
  have isRun := fun room => Collection.isPropertyRun_of_propertyRecords
    (isEmpty_of_packs packs) needed several made room
  have appended : site.Enriching ((site.file .property).appendAll records) middle
      fun head stores => head.toNat = (before .property).length ∧
        stores = middle.set .property (before .property ++ records) ∧
        Strung plan.recordCount (before .property) (before .property ++ records) := by
    refine enriching_appendAll (by decide) (fun room => (isRun room).2.2) fun room => ?_
    obtain ⟨⟨-, -, next, previous, fitting⟩, used, -⟩ := isRun room
    rw [same .property (by decide)] at room next previous ⊢
    refine ⟨toNat_ofNat_of_lt (by omega), rfl, records, rfl, ?_, next, previous⟩
    rw [fitting, used, needed]
  refine appended.bind fun head stores _ ended => (Yields.pure (some head)).enriching ?_
  obtain ⟨number, rfl, strung⟩ := ended
  refine ⟨by rwa [Stores.set_self], congrArg some number, fun kind noText noProperty => ?_⟩
  rw [Stores.set_of_ne middle noProperty, same kind noText]

/-- The keys of a plan are added first, and then all that follows them. -/
private theorem enriching_entries_carried {middle : Stores} {records : List KeyRecord}
    (filled : plan.entries ≠ []) (several : listed.isEmpty = false)
    (made : plan.newKeys.mapM KeyRecord.ofName = .ok records)
    (keys : middle .index = before .index ++ records)
    (same : ∀ kind, kind ≠ .index → middle kind = before kind) :
    site.Enriching (do
        let blocks ← plan.entries.mapM fun entry => site.collection.writeValue entry.1 entry.2
        let file ← site.collection.properties
        let first ← file.count
        let records ← Action.of
          (Collection.propertyRecords first 0 (slices blocksPerRecord plan.recordCount blocks))
        return some (← file.appendAll records)) middle fun head stores =>
      plan.Carried listed head before stores := by
  refine Ensures.imp (enriching_writeEntries_strung filled) (fun _ passing => passing) ?_
  intro outcome stores ended
  obtain ⟨enriched, written⟩ := ended
  refine ⟨enriched, fun head given => ?_⟩
  obtain ⟨strung, number, others⟩ := written head given
  rw [same .property (by decide)] at strung number
  have texts := enriched.grows .string (by decide)
  rw [same .string (by decide)] at texts
  refine ⟨⟨records, made, ?_⟩, strung, ?_, texts, fun kind outside => ?_⟩
  · rw [others .index (by decide) (by decide), keys]
  · rw [number, several]
    rfl
  · simp only [planKinds, List.mem_cons, List.not_mem_nil, not_or] at outside
    rw [others kind outside.2.1 outside.2.2.1, same kind outside.1]

/-- What is written as planned is added, and nothing else but texts. -/
theorem enriching_writeProperties_carried
    (added : PropertyPlan.addAll before.keys [] ⟨[], []⟩ listed = .ok plan)
    (plans : List.Forall₂ (PropertyPlan.Plans (before.keys ++ plan.newKeys)) plan.entries listed) :
    site.Enriching (site.collection.writeProperties plan) before fun head stores =>
      plan.Carried listed head before stores := by
  have width := plans.length_eq
  rw [Collection.writeProperties]
  cases listed with
  | nil =>
      cases added
      refine (Yields.pure none).enriching ⟨⟨[], rfl, (List.append_nil _).symm⟩, .nothing _, rfl, ?_, ?_⟩
      · exact List.prefix_refl _
      · exact fun _ _ => rfl
  | cons property rest =>
      have filled : plan.entries ≠ [] := by
        intro empty
        rw [empty] at width
        cases width
      have nonempty : plan.isEmpty = false := by simpa [PropertyPlan.isEmpty] using filled
      simp only [nonempty, Bool.false_eq_true, ↓reduceIte]
      by_cases known : plan.newKeys = []
      · simp only [known, List.isEmpty_nil, Bool.not_true, Bool.false_eq_true, ↓reduceIte]
        have made : plan.newKeys.mapM KeyRecord.ofName = .ok [] := by
          rw [known]
          rfl
        exact enriching_entries_carried filled rfl made (List.append_nil _).symm fun _ _ => rfl
      · have more : (!plan.newKeys.isEmpty) = true := by simpa using known
        simp only [more, ↓reduceIte]
        refine Enriching.of_bind fun records made => (yields_openAs .index).bind_ensures ?_
        have appended : site.Enriching ((site.file .index).appendAll records) before
            fun _ stores => stores = before.set .index (before .index ++ records) := by
          refine enriching_appendAll (by decide) ?_ fun _ => rfl
          intro _ record member
          obtain ⟨name, given⟩ := exists_of_mem_mapM made member
          exact KeyRecord.faithful_of_ofName given
        refine appended.bind fun _ middle _ same => ?_
        subst same
        refine enriching_entries_carried filled rfl made ?_ fun kind different => ?_
        · rw [Stores.set_self]
        · rw [Stores.set_of_ne before different]

end Site

end GraphStore
