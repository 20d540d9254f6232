import GraphStore.Proofs.Collection.Opening
import GraphStore.Proofs.Collection.Properties

/-!
# What answers tell

An answer that is given tells what the records are from which it was read. Main statements: a text
or a list of properties that can be read stands in the records, where its head points.
-/

set_option autoImplicit false

namespace GraphStore

open StoredRecord

namespace Site

variable {site : Site} {α β : Type} {stores : Stores}

/-- Whether an action that succeeds where the files hold some records changes nothing and gives a
value that fits. -/
def Tells (site : Site) (action : Action α) (stores : Stores) (fits : α → Prop) : Prop :=
  ∀ system, site.Holds stores system → ∀ value last,
    action.runOn system = (.ok value, last) → last = system ∧ fits value

variable {fits : α → Prop}

/-!
## Putting answers together
-/

theorem Yields.tells {action : Action α} {value : α}
    (given : site.Yields action stores (.ok value)) (fit : fits value) :
    site.Tells action stores fits := by
  intro system held other last succeeded
  rw [given.runOn_eq held] at succeeded
  cases succeeded
  exact ⟨rfl, fit⟩

theorem Yields.tells_error {action : Action α} {error : Error}
    (given : site.Yields action stores (.error error)) : site.Tells action stores fits := by
  intro system held value last succeeded
  rw [given.runOn_eq held] at succeeded
  cases succeeded

theorem Tells.bind {action : Action α} {next : α → Action β} {lastFits : β → Prop}
    (first : site.Tells action stores fits)
    (rest : ∀ value, fits value → site.Tells (next value) stores lastFits) :
    site.Tells (action >>= next) stores lastFits := by
  intro system held result last succeeded
  obtain ⟨value, middle, ran, onward⟩ := Action.exists_of_runOn_bind succeeded
  obtain ⟨rfl, fit⟩ := first system held value middle ran
  exact rest value fit middle held result last onward

theorem Yields.bind_tells {action : Action α} {next : α → Action β} {value : α}
    {lastFits : β → Prop} (first : site.Yields action stores (.ok value))
    (rest : site.Tells (next value) stores lastFits) :
    site.Tells (action >>= next) stores lastFits := by
  have given : site.Tells action stores (· = value) := first.tells rfl
  exact given.bind fun other same => same ▸ rest

theorem Tells.mapM {items : List α} {action : α → Action β} {related : α → β → Prop}
    (each : ∀ item ∈ items, site.Tells (action item) stores (related item)) :
    site.Tells (items.mapM action) stores (List.Forall₂ related items) := by
  induction items with
  | nil =>
      rw [List.mapM_nil]
      exact (Yields.pure []).tells .nil
  | cons item rest ih =>
      obtain ⟨here, others⟩ := List.forall_mem_cons.mp each
      rw [List.mapM_cons]
      refine here.bind fun value fit => (ih others).bind fun values onward => ?_
      exact (Yields.pure (value :: values)).tells (.cons fit onward)

/-!
## Records and chains
-/

theorem tells_readInUse {kind : StoreKind} (id : RecordId) :
    site.Tells ((site.file kind).readInUse id) stores fun record =>
      (stores kind)[id.toNat]? = some record ∧ inUse record = true := by
  cases found : (stores kind)[id.toNat]? with
  | none =>
      obtain ⟨detail, missing⟩ := @yields_readInUse_none site _ _ _ found
      exact missing.tells_error
  | some record =>
      refine (yields_read found).bind_tells ?_
      by_cases taken : inUse record = true
      · simp only [taken, ↓reduceIte]
        exact (Yields.pure record).tells ⟨rfl, taken⟩
      · simp only [taken]
        exact (Yields.throw _).tells_error

/-- A walk that ends has followed a chain. -/
theorem tells_walk {ρ : Type} {records : List ρ} {next : ρ → Option RecordId}
    {visit : RecordId → Action (α × Option RecordId)} {visited : RecordId × ρ → α → Prop}
    (visits : ∀ id, site.Tells (visit id) stores fun found =>
      ∃ record, records[id.toNat]? = some record ∧ found.2 = next record ∧
        visited (id, record) found.1)
    (endless : Error) (limit : Nat) (start : Option RecordId) :
    site.Tells (Collection.walk visit endless limit start) stores fun values =>
      ∃ way, Chain records next start way ∧ List.Forall₂ visited way values := by
  induction limit generalizing start with
  | zero =>
      cases start with
      | none => exact (Yields.pure []).tells ⟨[], .nil, .nil⟩
      | some id => exact (Yields.throw endless).tells_error
  | succ limit ih =>
      cases start with
      | none => exact (Yields.pure []).tells ⟨[], .nil, .nil⟩
      | some id =>
          refine (visits id).bind fun found told => ?_
          obtain ⟨record, here, following, fit⟩ := told
          refine (ih found.2).bind fun values onward => ?_
          obtain ⟨way, chain, fitAll⟩ := onward
          refine (Yields.pure (found.1 :: values)).tells ⟨(id, record) :: way, ?_, .cons fit fitAll⟩
          exact .cons here (following ▸ chain)

/-!
## Texts
-/

theorem tells_readText (head : RecordId) :
    site.Tells (site.collection.readText head) stores (TextAt stores head) := by
  refine (yields_openAs .string).bind_tells ((yields_count .string).bind_tells ?_)
  have visits : ∀ id, site.Tells (do
      let record ← (site.file .string).readInUse id
      pure (record.data, record.next)) stores fun found =>
        ∃ record, (stores .string)[id.toNat]? = some record ∧ found.2 = record.next ∧
          record.inUse = true ∧ record.data = found.1 := by
    intro id
    refine (tells_readInUse id).bind fun record told => ?_
    exact (Yields.pure _).tells ⟨record, told.1, rfl, told.2, rfl⟩
  have walked : ∀ endless limit, site.Tells (Collection.walk _ endless limit (some head)) stores
      fun chunks => ∃ way, Chain (stores .string) TextRecord.next (some head) way ∧
        List.Forall₂ (fun entry data => entry.2.inUse = true ∧ entry.2.data = data) way chunks :=
    fun endless limit => tells_walk visits endless limit (some head)
  refine (walked _ _).bind fun chunks told => ?_
  obtain ⟨way, chain, fit⟩ := told
  obtain ⟨taken, spelled⟩ := (List.forall₂_and_left way chunks).mp fit
  have data : way.map (fun entry => entry.2.data) = chunks := by
    rw [← List.forall₂_eq_eq_eq, List.forall₂_map_left_iff]
    exact spelled
  cases decoded : Text.Utf8.decode chunks.flatten with
  | error fault => exact (Yields.throw _).tells_error
  | ok text =>
      refine (Yields.pure text).tells ⟨way, chain, taken, ?_⟩
      rw [List.flatMap_def, data]
      exact (Text.Utf8.decode_eq_ok_iff.mp decoded).symm

/-!
## Properties
-/

theorem tag_of_type {block : PropertyBlock} {type : PropertyType} (same : block.type = type) :
    block.tag.toNat = type.tag := by
  rw [← same, PropertyBlock.type, PropertyType.tag_ofTag]

/-- An integer of a block is one of 64 bits. -/
theorem toInt_ofInt_toInt (block : PropertyBlock) : (Int64.ofInt block.toInt).toInt = block.toInt := by
  have small := block.value.isLt
  have bits : Int64.size = 0x10000000000000000 := rfl
  rw [Int64.toInt_ofInt, bits, PropertyBlock.toInt, BitVec.toInt]
  apply Int.bmod_eq_of_le
  · split <;> omega
  · split <;> omega

theorem tells_readBlock (id : RecordId) (block : PropertyBlock) :
    site.Tells (site.collection.readBlock stores.keys id block) stores (Spells stores block) := by
  rw [Collection.readBlock]
  cases known : stores.keys[block.key.toNat]? with
  | none => exact (Yields.throw _).tells_error
  | some key =>
      cases type : block.type with
      | bool => exact (Yields.pure _).tells ⟨known, tag_of_type type, rfl⟩
      | int =>
          refine (Yields.pure _).tells ⟨known, tag_of_type type, ?_⟩
          exact (toInt_ofInt_toInt block).symm
      | string =>
          refine (tells_readText _).bind fun text begins => ?_
          exact (Yields.pure _).tells ⟨known, tag_of_type type, begins⟩
      | empty | array | unknown => exact (Yields.throw _).tells_error

theorem tells_readProperties (head : Option RecordId) :
    site.Tells (site.collection.readProperties head) stores (PropertiesAt stores head) := by
  cases head with
  | none => exact (Yields.pure []).tells ⟨[], .nil, nofun, .nil⟩
  | some first =>
      refine (yields_openAs .property).bind_tells ((yields_count .property).bind_tells ?_)
      refine yields_keyNames.bind_tells ?_
      have visits : ∀ id, site.Tells (do
          let record ← (site.file .property).readInUse id
          let properties ← record.used.mapM (site.collection.readBlock stores.keys id)
          pure (properties, record.next.map UInt16.toUInt32)) stores fun found =>
            ∃ record, (stores .property)[id.toNat]? = some record ∧
              found.2 = record.next.map UInt16.toUInt32 ∧ record.inUse = true ∧
              List.Forall₂ (Spells stores) record.used found.1 := by
        intro id
        refine (tells_readInUse id).bind fun record told => ?_
        refine (Tells.mapM fun block _ => tells_readBlock id block).bind fun properties spelled => ?_
        exact (Yields.pure _).tells ⟨record, told.1, rfl, told.2, spelled⟩
      have walked : ∀ endless limit,
          site.Tells (Collection.walk _ endless limit (some first)) stores fun parts =>
            ∃ way, Chain (stores .property) (fun record => record.next.map UInt16.toUInt32)
                (some first) way ∧
              List.Forall₂ (fun entry properties => entry.2.inUse = true ∧
                List.Forall₂ (Spells stores) entry.2.used properties) way parts :=
        fun endless limit => tells_walk visits endless limit (some first)
      refine (walked _ _).bind fun parts told => ?_
      obtain ⟨way, chain, fit⟩ := told
      obtain ⟨taken, spelled⟩ := (List.forall₂_and_left way parts).mp fit
      refine (Yields.pure _).tells ⟨way, chain, taken, ?_⟩
      rw [List.flatMap_def]
      exact List.rel_flatten (List.forall₂_map_left_iff.mpr spelled)

end Site

end GraphStore
