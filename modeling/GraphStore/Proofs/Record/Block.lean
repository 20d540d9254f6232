import GraphStore.Record.Property

/-!
# Packed properties

What the fields of a block are when it could be made, and which blocks of a record are in use.
-/

set_option autoImplicit false

namespace GraphStore

namespace PropertyBlock

variable {block : PropertyBlock}

theorem make_eq_ok {key tag value : Nat} (made : make key tag value = .ok block) :
    block.key.toNat = key ∧ block.tag.toNat = tag ∧ block.value.toNat = value := by
  unfold make at made
  split at made
  next => cases made
  next keyFits =>
    split at made
    next => cases made
    next tagFits =>
      split at made
      next => cases made
      next valueFits =>
        cases made
        simp only [BitVec.toNat_ofNat]
        omega

theorem ofBool_eq_ok {key : Nat} {value : Bool} (made : ofBool key value = .ok block) :
    block.key.toNat = key ∧ block.tag.toNat = 1 ∧ (block.value != 0) = value := by
  obtain ⟨keyNumber, tagNumber, number⟩ := make_eq_ok made
  refine ⟨keyNumber, tagNumber, ?_⟩
  cases value with
  | false =>
      have zero : block.value = 0 := BitVec.eq_of_toNat_eq number
      rw [zero]
      rfl
  | true =>
      have one : block.value = 1 := BitVec.eq_of_toNat_eq number
      rw [one]
      rfl

theorem ofInt_eq_ok {key : Nat} {value : Int} (made : ofInt key value = .ok block) :
    block.key.toNat = key ∧ block.tag.toNat = 2 ∧ block.toInt = value := by
  unfold ofInt at made
  split at made
  next fit =>
    obtain ⟨keyNumber, tagNumber, number⟩ := make_eq_ok made
    have spelled : block.value = BitVec.ofInt 36 value := BitVec.eq_of_toNat_eq number
    simp only [fits, Bool.and_eq_true, decide_eq_true_eq] at fit
    refine ⟨keyNumber, tagNumber, ?_⟩
    rw [toInt, spelled, BitVec.toInt_ofInt, Int.bmod_eq_of_le] <;> omega
  next => cases made

theorem ofText_eq_ok {key : Nat} {head : RecordId} (made : ofText key head = .ok block) :
    block.key.toNat = key ∧ block.tag.toNat = 3 ∧ UInt32.ofNat block.value.toNat = head := by
  obtain ⟨keyNumber, tagNumber, number⟩ := make_eq_ok made
  exact ⟨keyNumber, tagNumber, by rw [number, UInt32.ofNat_toNat]⟩

theorem isEmpty_eq_false (some : block.tag.toNat ≠ 0) : block.isEmpty = false := by
  have differs : block.tag ≠ 0 := fun zero => some (zero ▸ rfl)
  simpa [isEmpty] using differs

end PropertyBlock

namespace PropertyRecord

private theorem toList_slots {blocks : List PropertyBlock} (few : blocks.length ≤ blocksPerRecord) :
    (Vector.ofFn fun slot : Fin blocksPerRecord => blocks.getD slot .vacant).toList =
      blocks ++ List.replicate (blocksPerRecord - blocks.length) .vacant := by
  apply List.ext_getElem
  · rw [Vector.length_toList, List.length_append, List.length_replicate]
    omega
  · intro slot inside _
    rw [Vector.getElem_toList, Vector.getElem_ofFn, List.getD_eq_getElem?_getD]
    by_cases early : slot < blocks.length
    · rw [List.getElem_append_left early, List.getElem?_eq_getElem early, Option.getD_some]
    · rw [List.getElem_append_right (Nat.le_of_not_lt early), List.getElem_replicate,
        List.getElem?_eq_none (Nat.le_of_not_lt early), Option.getD_none]

theorem ofBlocks_eq_ok {blocks : List PropertyBlock} {record : PropertyRecord}
    (made : ofBlocks blocks = .ok record) (taken : ∀ block ∈ blocks, block.isEmpty = false) :
    record.inUse = true ∧ record.used = blocks := by
  unfold ofBlocks at made
  split at made
  next => cases made
  next few =>
    cases made
    have all : blocks.filter (!·.isEmpty) = blocks :=
      List.filter_eq_self.mpr fun block member => by rw [taken block member]; rfl
    have none : (List.replicate (blocksPerRecord - blocks.length) PropertyBlock.vacant).filter
        (!·.isEmpty) = [] := by
      rw [List.filter_eq_nil_iff]
      intro block member
      rw [List.eq_of_mem_replicate member]
      decide
    refine ⟨rfl, ?_⟩
    rw [used, toList_slots (Nat.le_of_not_lt few), List.filter_append, all, none, List.append_nil]

end PropertyRecord

end GraphStore
