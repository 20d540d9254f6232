import GraphStore.Proofs.Collection.Writing

/-!
# Lists that can be planned

A plan is made property by property, with the keys counted on the way. Main statement: a list of
properties is planned if and only if its keys are different, the new ones among them are names and
not too many, and its integers fit.
-/

set_option autoImplicit false

namespace GraphStore

open Text

namespace PropertyPlan

/-- The keys of a list of properties that are not known yet. -/
def newKeysOf (known : List String) (listed : List Property) : List String :=
  (listed.map Property.key).filter (· ∉ known)

/-- Whether a list of properties can be planned. -/
structure Plannable (known : List String) (listed : List Property) : Prop where
  distinct : (listed.map Property.key).Nodup
  names : ∀ key ∈ newKeysOf known listed, 1 ≤ Utf8.size key ∧ Utf8.size key ≤ 30
  few : known.length + (newKeysOf known listed).length ≤ 16
  ints : ∀ property ∈ listed, ∀ value, property.value = .int value →
    -34359738368 ≤ value.toInt ∧ value.toInt ≤ 34359738367

variable {known earlier : List String} {plan planned : PropertyPlan} {property : Property}

theorem exists_ofName_iff {name : String} :
    (∃ record, KeyRecord.ofName name = .ok record) ↔
      1 ≤ Utf8.size name ∧ Utf8.size name ≤ 30 := by
  have filled : name.isEmpty = false ↔ 1 ≤ Utf8.size name := by
    rw [Utf8.size, Nat.one_le_iff_ne_zero, Ne, List.length_eq_zero_iff, Utf8.encode_eq_nil_iff,
      ← Bool.not_eq_true, String.isEmpty_iff]
  simp only [KeyRecord.ofName_eq_ok_iff, filled, maxKeySize]
  constructor
  · intro made
    obtain ⟨_, several, short, -⟩ := made
    exact ⟨several, short⟩
  · intro fits
    exact ⟨_, fits.1, fits.2, rfl⟩

theorem exists_ofInt_iff {key : Nat} (small : key < maxKeys) {value : Int} :
    (∃ block, PropertyBlock.ofInt key value = .ok block) ↔
      -34359738368 ≤ value ∧ value ≤ 34359738367 := by
  have fits : PropertyBlock.fits value = true ↔ -34359738368 ≤ value ∧ value ≤ 34359738367 := by
    simp only [PropertyBlock.fits, Bool.and_eq_true, decide_eq_true_eq]
    omega
  rw [← fits, PropertyBlock.ofInt]
  constructor
  · intro made
    obtain ⟨_, made⟩ := made
    split at made
    · assumption
    · cases made
  · intro fit
    rw [if_pos fit]
    exact PropertyBlock.exists_make _ _ small (by decide) (BitVec.isLt _)

/-!
## One property
-/

/-- What a property needs to be added to a plan. -/
structure Addable (known earlier : List String) (plan : PropertyPlan) (property : Property) :
    Prop where
  once : property.key ∉ earlier
  name : property.key ∉ known → 1 ≤ Utf8.size property.key ∧ Utf8.size property.key ≤ 30
  room : property.key ∉ known → known.length + plan.newKeys.length < maxKeys
  int : ∀ value, property.value = .int value →
    -34359738368 ≤ value.toInt ∧ value.toInt ≤ 34359738367

/-- What is known of a plan with the key of a property. -/
structure Keyed (known : List String) (plan : PropertyPlan) (key : String) (number : Nat)
    (extended : PropertyPlan) : Prop where
  name : key ∉ known → 1 ≤ Utf8.size key ∧ Utf8.size key ≤ 30
  number : if key ∈ known then number < known.length
    else number = known.length + plan.newKeys.length
  newKeys : extended.newKeys = plan.newKeys ++ [key].filter (· ∉ known)

theorem keyed_of_keyNumber {key : String} {number : Nat} {extended : PropertyPlan}
    (found : plan.keyNumber known key = .ok (number, extended)) :
    Keyed known plan key number extended := by
  unfold keyNumber at found
  split at found
  next place among =>
    cases found
    obtain ⟨inside, same, -⟩ := List.idxOf?_eq_some_iff.mp among
    have member : key ∈ known := same ▸ List.getElem_mem inside
    refine ⟨absurd member, by rwa [if_pos member], ?_⟩
    simp [member]
  next unknown =>
    obtain ⟨record, made, found⟩ := exists_of_bind_eq_ok found
    cases found
    have new := List.idxOf?_eq_none_iff.mp unknown
    refine ⟨fun _ => exists_ofName_iff.mp ⟨record, made⟩, by rw [if_neg new], ?_⟩
    simp [new]

theorem exists_keyNumber {key : String}
    (name : key ∉ known → 1 ≤ Utf8.size key ∧ Utf8.size key ≤ 30) :
    ∃ number extended, plan.keyNumber known key = .ok (number, extended) := by
  unfold keyNumber
  split
  next => exact ⟨_, _, rfl⟩
  next unknown =>
    obtain ⟨record, made⟩ := exists_ofName_iff.mpr (name (List.idxOf?_eq_none_iff.mp unknown))
    rw [made]
    exact ⟨_, _, rfl⟩

/-- A plan that gets a property has room for its key and gets the key if it is new. -/
theorem addable_of_add
    (added : plan.add known earlier property = .ok planned) :
    Addable known earlier plan property ∧
      planned.newKeys = plan.newKeys ++ newKeysOf known [property] := by
  rw [add] at added
  split at added
  next => cases added
  next once =>
    obtain ⟨⟨number, extended⟩, found, added⟩ := exists_of_bind_eq_ok added
    have keyed := keyed_of_keyNumber found
    simp only at added
    split at added
    next => cases added
    next small =>
      have room : property.key ∉ known → known.length + plan.newKeys.length < maxKeys := by
        intro new
        have number := keyed.number
        rw [if_neg new] at number
        omega
      split at added
      next int value =>
        obtain ⟨block, made, added⟩ := exists_of_bind_eq_ok added
        cases added
        refine ⟨⟨by simpa using once, keyed.name, room, fun other same => ?_⟩, keyed.newKeys⟩
        rw [value] at same
        cases same
        exact (exists_ofInt_iff (Nat.lt_of_not_le small)).mp ⟨block, made⟩
      next noInt =>
        cases added
        exact ⟨⟨by simpa using once, keyed.name, room, fun int same => absurd same (noInt int)⟩,
          keyed.newKeys⟩

theorem Addable.exists_add (addable : Addable known earlier plan property)
    (few : known.length ≤ maxKeys) : ∃ planned, plan.add known earlier property = .ok planned := by
  have once : earlier.contains property.key = false := by simpa using addable.once
  obtain ⟨number, extended, found⟩ := @exists_keyNumber known plan _ addable.name
  have small : number < maxKeys := by
    have placed := (keyed_of_keyNumber found).number
    split at placed
    next => omega
    next new => exact placed ▸ addable.room new
  simp only [add, once, found, Bool.false_eq_true, ↓reduceIte, bind, Except.bind,
    Nat.not_le.mpr small]
  cases value : property.value with
  | bool => exact ⟨_, rfl⟩
  | text => exact ⟨_, rfl⟩
  | int int =>
      obtain ⟨block, made⟩ := (exists_ofInt_iff small).mpr (addable.int int value)
      simp only [made]
      exact ⟨_, rfl⟩

/-!
## All properties
-/

/-- What a list of properties needs to be added to a plan. -/
structure AllAddable (known earlier : List String) (plan : PropertyPlan) (listed : List Property) :
    Prop where
  unseen : ∀ property ∈ listed, property.key ∉ earlier
  distinct : (listed.map Property.key).Nodup
  names : ∀ key ∈ newKeysOf known listed, 1 ≤ Utf8.size key ∧ Utf8.size key ≤ 30
  few : known.length + plan.newKeys.length + (newKeysOf known listed).length ≤ maxKeys
  ints : ∀ property ∈ listed, ∀ value, property.value = .int value →
    -34359738368 ≤ value.toInt ∧ value.toInt ≤ 34359738367

theorem newKeysOf_cons (known : List String) (property : Property) (rest : List Property) :
    newKeysOf known (property :: rest) = newKeysOf known [property] ++ newKeysOf known rest :=
  List.filter_append [property.key] _

theorem newKeysOf_singleton (known : List String) (property : Property) :
    newKeysOf known [property] = if property.key ∈ known then [] else [property.key] := by
  by_cases member : property.key ∈ known <;> simp [newKeysOf, member]

theorem allAddable_cons_iff {rest : List Property}
    (newKeys : planned.newKeys = plan.newKeys ++ newKeysOf known [property]) :
    AllAddable known earlier plan (property :: rest) ↔
      Addable known earlier plan property ∧
        AllAddable known (property.key :: earlier) planned rest := by
  have counted : known.length + plan.newKeys.length + (newKeysOf known (property :: rest)).length =
      known.length + planned.newKeys.length + (newKeysOf known rest).length := by
    rw [newKeysOf_cons, newKeys, List.length_append, List.length_append]
    omega
  have here : (property.key ∉ known → 1 ≤ Utf8.size property.key ∧ Utf8.size property.key ≤ 30) ↔
      ∀ key ∈ newKeysOf known [property], 1 ≤ Utf8.size key ∧ Utf8.size key ≤ 30 := by
    simp [newKeysOf]
  constructor
  · intro all
    have ⟨unseen, distinct, names, few, ints⟩ := all
    obtain ⟨once, others⟩ := List.forall_mem_cons.mp unseen
    obtain ⟨int, otherInts⟩ := List.forall_mem_cons.mp ints
    rw [List.map_cons, List.nodup_cons] at distinct
    rw [newKeysOf_cons, List.forall_mem_append] at names
    refine ⟨⟨once, here.mpr names.1, fun new => ?_, int⟩, ?_, distinct.2, names.2, ?_, otherInts⟩
    · rw [newKeysOf_cons, newKeysOf_singleton, if_neg new, List.length_append,
        List.length_singleton] at few
      omega
    · intro other member inside
      rcases List.mem_cons.mp inside with same | early
      · exact distinct.1 (same ▸ List.mem_map_of_mem member)
      · exact others other member early
    · rw [← counted]
      exact few
  · intro parts
    have ⟨⟨once, name, _, int⟩, unseen, distinct, names, few, ints⟩ := parts
    refine ⟨?_, ?_, ?_, counted ▸ few, List.forall_mem_cons.mpr ⟨int, ints⟩⟩
    · refine List.forall_mem_cons.mpr ⟨once, fun other member early => ?_⟩
      exact unseen other member (List.mem_cons_of_mem _ early)
    · rw [List.map_cons, List.nodup_cons]
      refine ⟨fun again => ?_, distinct⟩
      obtain ⟨other, member, same⟩ := List.mem_map.mp again
      exact unseen other member (same ▸ List.mem_cons_self)
    · rw [newKeysOf_cons, List.forall_mem_append]
      exact ⟨here.mp name, names⟩

theorem exists_addAll_iff {listed : List Property}
    (few : known.length + plan.newKeys.length ≤ maxKeys) :
    (∃ planned, plan.addAll known earlier listed = .ok planned) ↔
      AllAddable known earlier plan listed := by
  induction listed generalizing plan earlier with
  | nil => exact ⟨fun _ => ⟨nofun, .nil, nofun, few, nofun⟩, fun _ => ⟨plan, rfl⟩⟩
  | cons property rest ih =>
      have start : known.length ≤ maxKeys := by omega
      have later {middle : PropertyPlan} (addable : Addable known earlier plan property)
          (newKeys : middle.newKeys = plan.newKeys ++ newKeysOf known [property]) :
          known.length + middle.newKeys.length ≤ maxKeys := by
        rw [newKeys, newKeysOf_singleton]
        split
        next => rwa [List.append_nil]
        next new =>
          have room := addable.room new
          rw [List.length_append, List.length_singleton]
          omega
      constructor
      · intro given
        obtain ⟨last, added⟩ := given
        obtain ⟨middle, first, onward⟩ := exists_of_bind_eq_ok added
        obtain ⟨addable, newKeys⟩ := addable_of_add first
        exact (allAddable_cons_iff newKeys).mpr
          ⟨addable, (ih (later addable newKeys)).mp ⟨last, onward⟩⟩
      · intro all
        let extended : PropertyPlan :=
          { plan with newKeys := plan.newKeys ++ newKeysOf known [property] }
        have split : Addable known earlier plan property ∧ AllAddable known _ extended rest :=
          (allAddable_cons_iff rfl).mp all
        have addable := split.1
        obtain ⟨middle, first⟩ := addable.exists_add start
        obtain ⟨-, newKeys⟩ := addable_of_add first
        obtain ⟨last, onward⟩ := (ih (later addable newKeys)).mpr
          ((allAddable_cons_iff newKeys).mp all).2
        exact ⟨last, by rw [addAll, first]; exact onward⟩

theorem plannable_iff {listed : List Property} (few : known.length ≤ maxKeys) :
    (∃ planned, PropertyPlan.addAll known [] ⟨[], []⟩ listed = .ok planned) ↔
      Plannable known listed := by
  have none : known.length + (PropertyPlan.mk [] []).newKeys.length ≤ maxKeys := few
  rw [exists_addAll_iff none]
  exact ⟨fun all => ⟨all.distinct, all.names, all.few, all.ints⟩,
    fun plannable => ⟨fun _ _ => List.not_mem_nil, plannable.distinct, plannable.names,
      plannable.few, plannable.ints⟩⟩

end PropertyPlan

end GraphStore
