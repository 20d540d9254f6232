import GraphStore.Proofs.Collection.Keeping
import GraphStore.Proofs.Engine.Interruption
import GraphStore.Proofs.Engine.Tidiness

/-!
# How many keys a collection has

Keys are only added by the properties of a plan, which are counted when the plan is made. Main
statement: wherever calls on a collection are interrupted or find a file full, every key has a
number that fits in a block.
-/

set_option autoImplicit false

namespace GraphStore

namespace Stores

/-- Whether the number of every key fits in a block. -/
def FewKeys (stores : Stores) : Prop := (stores .index).length ≤ maxKeys

variable {kind : StoreKind}

theorem ignores_fewKeys (noKey : kind ≠ .index) : Ignores FewKeys kind := by
  intro stores records few
  rw [FewKeys, set_of_ne stores noKey.symm]
  exact few

theorem ignores_index_eq (keys : List KeyRecord) (noKey : kind ≠ .index) :
    Ignores (fun stores => stores .index = keys) kind := by
  intro stores records same
  rw [set_of_ne stores noKey.symm, same]

end Stores

open Stores (FewKeys)

namespace Site

variable {site : Site} {α β : Type} {before : Stores} {plan : PropertyPlan}

/-!
## Calls
-/

theorem ensures_writeProperties_fewKeys (few : before.FewKeys)
    (checked : plan.Checked before.keys) :
    site.Ensures (site.collection.writeProperties plan) before FewKeys
      fun _ stores => stores.FewKeys := by
  have entries : site.Maintains FewKeys _ := maintains_writeEntries
    (Stores.ignores_fewKeys (by decide)) (Stores.ignores_fewKeys (by decide)) plan
  rw [Collection.writeProperties]
  split
  next => exact (Yields.pure none).ensures few
  next =>
    split
    next several =>
      refine Ensures.of_bind (fun records made => ?_) fun _ _ => few
      have more : plan.newKeys ≠ [] := by simpa using several
      have length : records.length = plan.newKeys.length :=
        (forall₂_of_mapM_eq_ok made).length_eq.symm
      have added : (before.set .index (before .index ++ records)).FewKeys := by
        rw [FewKeys, Stores.set_self, List.length_append, length,
          ← List.length_map (f := KeyRecord.name)]
        exact checked.few more
      have appended : site.Ensures ((site.file .index).appendAll records) before FewKeys
          fun _ stores => stores.FewKeys := by
        refine ensures_appendAll ?_ (fun _ _ _ => few) fun _ => ⟨added, added⟩
        intro _ record member
        obtain ⟨name, given⟩ := exists_of_mem_mapM made member
        exact KeyRecord.faithful_of_ofName given
      refine (yields_openAs .index).bind_ensures (appended.bind ?_ fun _ _ kept => kept)
      exact fun _ stores kept => entries stores kept
    next => exact entries before few

/-- What is added before the properties of a plan leaves the keys as they were for it. -/
theorem Maintains.writing {prepare : Action α} {next : α → Option RecordId → Action β}
    (few : before.FewKeys) (checked : plan.Checked before.keys)
    (first : site.Maintains (fun stores => stores .index = before .index) prepare)
    (rest : ∀ value head, site.Maintains FewKeys (next value head)) :
    site.Ensures (do
      let value ← prepare
      let head ← site.collection.writeProperties plan
      next value head) before FewKeys fun _ stores => stores.FewKeys := by
  have still : ∀ stores : Stores, stores .index = before .index → stores.FewKeys := by
    intro stores same
    rw [FewKeys, same]
    exact few
  refine Ensures.bind ((first before rfl).imp still fun _ _ ended => ended) ?_ ?_
  · intro value middle same
    have keys : middle.keys = before.keys := congrArg (List.map KeyRecord.name) same
    refine Ensures.bind (ensures_writeProperties_fewKeys (still middle same) (keys ▸ checked)) ?_ ?_
    · exact fun head stores kept => rest value head stores kept
    · exact fun _ _ kept => kept
  · exact fun _ stores same => still stores same

/-- A list of properties is planned, or nothing comes of it. -/
theorem Maintains.plan_bind {properties : List Property} {next : PropertyPlan → Action α}
    (rest : ∀ before plan, before.FewKeys → plan.Checked before.keys →
      site.Ensures (next plan) before FewKeys fun _ stores => stores.FewKeys) :
    site.Maintains FewKeys (site.collection.planProperties properties >>= next) := by
  intro before few
  rcases @yields_planProperties site before properties with
    ⟨error, denied⟩ | ⟨plan, planned, -, added, -⟩
  · exact (denied.bind_error _).ensures few
  · have checked := (PropertyPlan.checked_empty before.keys).addAll added
    exact planned.bind_ensures (rest before plan few checked)

theorem maintains_createNode (node : Node) :
    site.Maintains FewKeys (site.collection.createNode node) := by
  refine .of_bind fun _ _ => .of_bind fun record made => .plan_bind fun before plan few checked => ?_
  refine yields_verify.bind_ensures (Maintains.writing few checked ?_ fun labels head => ?_)
  · cases record with
    | none => exact .pure none
    | some record =>
        have label : ∃ texts, LabelRecord.ofLabels texts = .ok record := by
          unfold Collection.labelRecord? at made
          split at made
          · cases made
          · obtain ⟨_, given, same⟩ := exists_of_map_eq_ok made
            exact ⟨_, Option.some.inj same ▸ given⟩
        obtain ⟨texts, given⟩ := label
        have writable := (LabelRecord.faithful_of_ofLabels given).writable
        exact (maintains_addLabel (Stores.ignores_index_eq _ (by decide)) writable).bind
          fun id => .pure (some id)
  · exact (maintains_addNode (Stores.ignores_fewKeys (by decide))
      (Stores.ignores_fewKeys (by decide)) labels head).bind fun _ => .pure _

theorem maintains_linkBack (node : RecordId) (former : Option RecordId) (id : RecordId) :
    site.Maintains FewKeys (Collection.linkBack (site.file .relationship) node former id) := by
  cases former with
  | none => exact .pure ()
  | some head =>
      refine Maintains.bind (maintains_of_asks (Collection.asks_read _ _)) fun record => ?_
      exact maintains_writeAt (Stores.ignores_fewKeys (by decide)) head
        (RelationshipRecord.writable _)

theorem maintains_createRelationship (relationship : Relationship) :
    site.Maintains FewKeys (site.collection.createRelationship relationship) := by
  refine .open_bind .node ?_
  refine Maintains.bind (maintains_of_asks (Collection.asks_endpoint _ _)) fun sourceRecord => ?_
  refine Maintains.bind (maintains_of_asks (Collection.asks_endpoint _ _)) fun targetRecord => ?_
  refine .of_bind fun _ _ => ?_
  by_cases unnamed : relationship.kind.isEmpty = true
  · simp only [unnamed, ↓reduceIte]
    exact maintains_of_asks (Action.asks_throw _)
  simp only [unnamed]
  refine .of_bind fun kindRecord made => .plan_bind fun before plan few checked => ?_
  have writable := (LabelRecord.faithful_of_ofLabels made).writable
  refine yields_verify.bind_ensures ((yields_openAs .label).bind_ensures ?_)
  refine Maintains.writing few checked
    (maintains_append (Stores.ignores_index_eq _ (by decide)) writable) fun kind head => ?_
  have writes (id : RecordId) (record : NodeRecord) :
      site.Maintains FewKeys ((site.file .node).writeAt id record) :=
    maintains_writeAt (Stores.ignores_fewKeys (by decide)) id (NodeRecord.writable _)
  refine .open_bind .relationship (Maintains.bind ?_ fun id => ?_)
  · exact maintains_append (Stores.ignores_fewKeys (by decide)) (RelationshipRecord.writable _)
  refine (maintains_linkBack _ _ id).bind fun _ => ?_
  split
  · exact (maintains_linkBack _ _ id).bind fun _ => (writes _ _).bind fun _ =>
      (writes _ _).bind fun _ => .pure _
  · exact (writes _ _).bind fun _ => .pure _

end Site

/-!
## Sessions
-/

namespace Session

variable {name : String} {session later : Session}

/-- Whether the files of a collection hold a graph and not too many keys. -/
def Numbers (name : String) (session : Session) : Prop :=
  ∃ stores graph, session.Holds name stores ∧ Represents stores graph ∧ stores.FewKeys

theorem IsFresh.numbers (fresh : session.IsFresh name) : session.Numbers name :=
  ⟨.empty, .empty, fresh.holds_empty, represents_empty, Nat.zero_le _⟩

theorem Holds.fewKeys_leadsTo {before : Stores} {graph : StoredGraph} {call : Call}
    (holds : session.Holds name before) (represents : Represents before graph)
    (few : before.FewKeys) (leads : session.LeadsTo name call later) :
    ∃ stores, later.Holds name stores ∧ stores.FewKeys := by
  have ⟨site, lists, held⟩ := holds
  have creates (node : Node) : site.Ensures (session.engine.createNode name node) before FewKeys
      fun _ stores => stores.FewKeys :=
    lists.yields_collection.bind_ensures (Site.maintains_createNode node before few)
  have relates (relationship : Relationship) :
      site.Ensures (session.engine.createRelationship name relationship) before FewKeys
        fun _ stores => stores.FewKeys :=
    lists.yields_collection.bind_ensures
      (Site.maintains_createRelationship relationship before few)
  cases leads with
  | whole =>
      cases reads : call.adds with
      | false =>
          obtain ⟨stores, laterHolds, behaves⟩ := holds.step represents call
          exact ⟨stores, laterHolds, behaves.eq_of_reads reads ▸ few⟩
      | true =>
          cases call with
          | createNode node =>
              obtain ⟨stores, laterHeld, beside, kept⟩ := (creates node).runOn held
              exact ⟨stores, holds_of_beside lists held laterHeld beside, kept⟩
          | createRelationship relationship =>
              obtain ⟨stores, laterHeld, beside, kept⟩ := (relates relationship).runOn held
              exact ⟨stores, holds_of_beside lists held laterHeld beside, kept⟩
          | getNode | getRelationship | reopen => cases reads
  | nodeInterrupted node count =>
      obtain ⟨stores, laterHeld, beside, passed⟩ := (creates node).interrupted held count
      exact ⟨stores, holds_of_beside lists held laterHeld beside, passed.elim (· ▸ few) id⟩
  | relationshipInterrupted relationship count =>
      obtain ⟨stores, laterHeld, beside, passed⟩ := (relates relationship).interrupted held count
      exact ⟨stores, holds_of_beside lists held laterHeld beside, passed.elim (· ▸ few) id⟩

theorem Numbers.leadsTo {call : Call} (numbers : session.Numbers name)
    (leads : session.LeadsTo name call later) : later.Numbers name := by
  obtain ⟨before, graph, holds, represents, few⟩ := numbers
  obtain ⟨next, -, stores, laterHolds, laterRepresents⟩ :=
    Shows.leadsTo ⟨before, holds, represents⟩ leads
  refine ⟨stores, next, laterHolds, laterRepresents, ?_⟩
  obtain ⟨kept, keptHolds, keptFew⟩ := holds.fewKeys_leadsTo represents few leads
  exact laterHolds.unique keptHolds ▸ keptFew

theorem Numbers.reaches (numbers : session.Numbers name) (reaches : session.Reaches name later) :
    later.Numbers name := by
  induction reaches with
  | refl => exact numbers
  | next _ leads ih => exact ih.leadsTo leads

end Session

end GraphStore
