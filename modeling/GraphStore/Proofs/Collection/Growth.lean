import GraphStore.Proofs.Collection.Chain

/-!
# Additions that nothing points at yet

Labels, keys, texts and properties are added before the record that points at them. Such additions
leave nodes and relationships as they are, and all that was written before stays where it is.
-/

set_option autoImplicit false

namespace GraphStore

/-- Whether records of a kind are pointed at by those of nodes and relationships only. -/
abbrev StoreKind.IsAside (kind : StoreKind) : Prop :=
  kind ≠ .node ∧ kind ≠ .nodeId ∧ kind ≠ .relationship

/-- Whether labels, keys, texts and properties were only added. -/
def Grows (before stores : Stores) : Prop :=
  ∀ kind : StoreKind, kind.IsAside → before kind <+: stores kind

/-- Whether some records came from others by additions of labels, keys, texts and properties. -/
structure Enriches (before stores : Stores) : Prop where
  grows : Grows before stores
  node : stores .node = before .node
  nodeId : stores .nodeId = before .nodeId
  relationship : stores .relationship = before .relationship

section

variable {before middle stores : Stores}

theorem Grows.trans (first : Grows before middle) (second : Grows middle stores) :
    Grows before stores :=
  fun kind aside => (first kind aside).trans (second kind aside)

/-- Nodes and relationships can be changed without a change of what they point at. -/
theorem Grows.set (stores : Stores) {kind : StoreKind} (apart : ¬kind.IsAside)
    (records : List kind.Record) : Grows stores (stores.set kind records) := by
  intro other aside
  have different : other ≠ kind := by
    intro same
    subst same
    exact apart aside
  have kept : stores other = stores.set kind records other :=
    (Stores.set_of_ne stores different records).symm
  exact kept ▸ List.prefix_refl _

namespace Enriches

theorem refl (stores : Stores) : Enriches stores stores :=
  ⟨fun kind _ => List.prefix_refl (stores kind), rfl, rfl, rfl⟩

theorem trans (first : Enriches before middle) (second : Enriches middle stores) :
    Enriches before stores where
  grows := first.grows.trans second.grows
  node := second.node.trans first.node
  nodeId := second.nodeId.trans first.nodeId
  relationship := second.relationship.trans first.relationship

theorem append (stores : Stores) (kind : StoreKind) (aside : kind.IsAside)
    (records : List kind.Record) : Enriches stores (stores.set kind (stores kind ++ records)) where
  grows other _ := by
    by_cases same : other = kind
    · subst same
      rw [Stores.set_self]
      exact List.prefix_append _ _
    · have kept : stores other = stores.set kind (stores kind ++ records) other :=
        (Stores.set_of_ne stores same _).symm
      exact kept ▸ List.prefix_refl _
  node := Stores.set_of_ne stores aside.1.symm _
  nodeId := Stores.set_of_ne stores aside.2.1.symm _
  relationship := Stores.set_of_ne stores aside.2.2.symm _

end Enriches

end

namespace Site

variable {site : Site} {α β : Type} {before : Stores}

/-- Whether an action only adds, and gives values that fit the records behind it. -/
def Enriching (site : Site) (action : Action α) (before : Stores) (gives : α → Stores → Prop) :
    Prop :=
  site.Ensures action before (Enriches before) fun outcome stores =>
    Enriches before stores ∧ ∀ value, outcome = .ok value → gives value stores

variable {gives : α → Stores → Prop}

theorem Yields.enriching {action : Action α} {value : α}
    (given : site.Yields action before (.ok value)) (fits : gives value before) :
    site.Enriching action before gives := by
  refine given.ensures ⟨.refl before, fun other same => ?_⟩
  exact Except.ok.inj same ▸ fits

theorem Yields.enriching_error {action : Action α} {error : Error}
    (given : site.Yields action before (.error error)) : site.Enriching action before gives :=
  given.ensures ⟨.refl before, nofun⟩

theorem Enriching.of {result : Except Error α}
    (fits : ∀ value, result = .ok value → gives value before) :
    site.Enriching (.of result) before gives := by
  cases result with
  | error error => exact (Yields.of rfl).enriching_error
  | ok value => exact (Yields.of rfl).enriching (fits value rfl)

theorem Enriching.bind {action : Action α} {next : α → Action β} {last : β → Stores → Prop}
    (first : site.Enriching action before gives)
    (rest : ∀ value stores, Enriches before stores → gives value stores →
      site.Enriching (next value) stores last) :
    site.Enriching (action >>= next) before last := by
  refine Ensures.bind first ?_ ?_
  · intro value stores ended
    obtain ⟨enriched, fits⟩ := ended
    refine (rest value stores enriched (fits value rfl)).imp ?_ ?_
    · exact fun later onward => enriched.trans onward
    · exact fun outcome later onward => ⟨enriched.trans onward.1, onward.2⟩
  · intro error stores ended
    obtain ⟨enriched, -⟩ := ended
    exact ⟨enriched, nofun⟩

/-- What an action adds first can be followed by other changes. -/
theorem Enriching.bind_ensures {action : Action α} {next : α → Action β} {passing : Stores → Prop}
    {after : Except Error β → Stores → Prop} (first : site.Enriching action before gives)
    (passes : ∀ stores, Enriches before stores → passing stores)
    (rest : ∀ value stores, Enriches before stores → gives value stores →
      site.Ensures (next value) stores passing after)
    (failed : ∀ error stores, Enriches before stores → after (.error error) stores) :
    site.Ensures (action >>= next) before passing after := by
  have passing_first := Ensures.imp first passes fun _ _ ends => ends
  refine passing_first.bind ?_ ?_
  · exact fun value stores ends => rest value stores ends.1 (ends.2 value rfl)
  · exact fun error stores ends => failed error stores ends.1

theorem Enriching.of_bind {result : Except Error α} {next : α → Action β}
    {last : β → Stores → Prop}
    (rest : ∀ value, result = .ok value → site.Enriching (next value) before last) :
    site.Enriching (Action.of result >>= next) before last :=
  Ensures.of_bind rest fun _ _ => ⟨.refl before, nofun⟩

/-- Each item of a list gives a value that stays right while the following ones are added. -/
theorem Enriching.mapM {action : α → Action β} (related : α → β → Stores → Prop)
    (kept : ∀ item value earlier later, Enriches earlier later → related item value earlier →
      related item value later)
    {items : List α}
    (each : ∀ item ∈ items, ∀ stores, Enriches before stores →
      site.Enriching (action item) stores (related item)) :
    site.Enriching (items.mapM action) before fun values stores =>
      List.Forall₂ (fun item value => related item value stores) items values := by
  induction items generalizing before with
  | nil =>
      rw [List.mapM_nil]
      exact (Yields.pure []).enriching .nil
  | cons item rest ih =>
      obtain ⟨here, others⟩ := List.forall_mem_cons.mp each
      rw [List.mapM_cons]
      refine (here before (.refl before)).bind fun value middle enriched fits => ?_
      refine (ih fun other member stores onward =>
        others other member stores (enriched.trans onward)).bind fun values stores onward fit => ?_
      exact (Yields.pure _).enriching (.cons (kept item value middle stores onward fits) fit)

theorem enriching_appendAll {kind : StoreKind} (aside : kind.IsAside)
    {records : List kind.Record} {gives : RecordId → Stores → Prop}
    (faithful : (before kind).length + records.length < RecordFile.idLimit →
      ∀ record ∈ records, StoredRecord.Faithful record)
    (fits : (before kind).length + records.length < RecordFile.idLimit →
      gives (UInt32.ofNat (before kind).length)
        (before.set kind (before kind ++ records))) :
    site.Enriching ((site.file kind).appendAll records) before gives := by
  refine ensures_appendAll faithful (fun _ _ _ => ⟨.refl before, nofun⟩) fun room => ?_
  have added := Enriches.append before kind aside records
  refine ⟨added, added, fun value same => ?_⟩
  exact Except.ok.inj same ▸ fits room

end Site

end GraphStore
