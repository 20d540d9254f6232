import GraphStore.Proofs.Record.Block
import GraphStore.Proofs.Record.Faithful
import Mathlib

/-!
# The bits of a packed property

Where the bits of a block's fields stand in its eight bytes. Main statement: the fields that fit
their bits are those that make a block, blocks and eight bytes correspond one to one, the bytes spell
the fields one behind the other as one number, and an integer comes back with its sign.
-/

set_option autoImplicit false

namespace GraphStore

namespace PropertyBlock

variable {key tag value : Nat} {integer : Int} {bytes : List UInt8}

/-!
## Fields that fit
-/

theorem exists_make_iff :
    (∃ made, make key tag value = .ok made) ↔ key < 2 ^ 4 ∧ tag < 2 ^ 24 ∧ value < 2 ^ 36 := by
  unfold make
  constructor
  · rintro ⟨made, given⟩
    split at given
    · cases given
    split at given
    · cases given
    split at given
    · cases given
    omega
  · rintro ⟨keyFits, tagFits, valueFits⟩
    rw [if_neg (by omega), if_neg (by omega), if_neg (by omega)]
    exact ⟨_, rfl⟩

theorem exists_ofInt_iff :
    (∃ made, ofInt key integer = .ok made) ↔
      key < 2 ^ 4 ∧ -2 ^ 35 ≤ integer ∧ integer < 2 ^ 35 := by
  have truncated : (BitVec.ofInt 36 integer).toNat < 2 ^ 36 := (BitVec.ofInt 36 integer).isLt
  unfold ofInt
  by_cases fit : fits integer = true
  · rw [if_pos fit, exists_make_iff]
    simp only [fits, Bool.and_eq_true, decide_eq_true_eq] at fit
    simp only [PropertyType.tag]
    omega
  · rw [if_neg fit]
    simp only [fits, Bool.and_eq_true, decide_eq_true_eq] at fit
    constructor
    · rintro ⟨made, given⟩
      cases given
    · rintro ⟨_, least, greatest⟩
      omega

/-!
## Bytes in their order
-/

/-- The number that bytes spell to base 256, the most significant byte first. -/
def bigEndian (bytes : List UInt8) : Nat :=
  bytes.foldl (fun number byte => number * 256 + byte.toNat) 0

theorem bigEndian_eq_read (bytes : List UInt8) : bigEndian bytes = Endian.big.read bytes := by
  rw [bigEndian, Endian.read, List.foldl_eq_foldr_reverse]
  induction bytes.reverse with
  | nil => rfl
  | cons byte rest ih =>
      rw [List.foldr_cons, ih, ofLowBytes]
      omega

theorem bigEndian_pack (block : PropertyBlock) : bigEndian block.pack = block.toNat := by
  have bound := block.toNat_lt
  rw [bigEndian_eq_read, pack, Endian.read_write, Nat.mod_eq_of_lt (by omega)]

theorem toNat_unpack (eight : bytes.length = 8) : (unpack bytes).toNat = bigEndian bytes := by
  have bound : Endian.big.read bytes < 0x10000000000000000 := by
    have again := Endian.big.read_write 8 (Endian.big.read bytes)
    rw [← eight, Endian.write_read, eight] at again
    rw [again]
    exact Nat.mod_lt _ (by decide)
  rw [unpack, toNat_ofNat _ bound, bigEndian_eq_read]

theorem pack_unpack (eight : bytes.length = 8) : pack (unpack bytes) = bytes := by
  rw [pack, toNat_unpack eight, bigEndian_eq_read, ← eight, Endian.write_read]

/-!
## Bits in their bytes
-/

/-- The eight bytes with the bits of each: four of the key and four of the tag, two bytes of the tag,
four bits of the tag and four of the value, and four bytes of the value. -/
def layout (block : PropertyBlock) : List UInt8 :=
  [.ofBitVec (block.key ++ block.tag.extractLsb' 20 4),
    .ofBitVec (block.tag.extractLsb' 12 8),
    .ofBitVec (block.tag.extractLsb' 4 8),
    .ofBitVec (block.tag.extractLsb' 0 4 ++ block.value.extractLsb' 32 4),
    .ofBitVec (block.value.extractLsb' 24 8),
    .ofBitVec (block.value.extractLsb' 16 8),
    .ofBitVec (block.value.extractLsb' 8 8),
    .ofBitVec (block.value.extractLsb' 0 8)]

private theorem toNat_append {width further : Nat} (high : BitVec width) (low : BitVec further) :
    (high ++ low).toNat = high.toNat * 2 ^ further + low.toNat := by
  rw [BitVec.toNat_append, ← Nat.shiftLeft_add_eq_or_of_lt low.isLt, Nat.shiftLeft_eq]

theorem pack_eq_layout (block : PropertyBlock) : block.pack = block.layout := by
  have key := block.key.isLt
  have tag := block.tag.isLt
  have value := block.value.isLt
  rw [pack, layout, Endian.write]
  simp only [lowBytes, List.reverse_cons, List.reverse_nil, List.nil_append, List.cons_append,
    List.cons.injEq, and_true]
  refine ⟨?_, ?_, ?_, ?_, ?_, ?_, ?_, ?_⟩
  -- Each byte is the number without its lower bytes, up to 256, and so are the bits of the fields.
  all_goals
    apply UInt8.toNat_inj.mp
    simp only [UInt8.toNat_ofNat', UInt8.toNat_ofBitVec, toNat_append, BitVec.extractLsb'_toNat,
      Nat.shiftRight_eq_div_pow, toNat]
    omega

/-- The value with its sign: moved to the top of 64 bits, and back with the sign bit following. -/
def signed (value : BitVec 36) : BitVec 64 := (value.setWidth 64 <<< 28).sshiftRight 28

theorem toInt_signed (value : BitVec 36) : (signed value).toInt = value.toInt := by
  have bound := value.isLt
  rw [signed, BitVec.toInt_sshiftRight, BitVec.toInt_eq_toNat_cond, BitVec.toInt_eq_toNat_cond,
    BitVec.toNat_shiftLeft, BitVec.toNat_setWidth, Nat.shiftLeft_eq, Int.shiftRight_eq_div_pow]
  split <;> split <;> omega

/-- A block is packed bit by bit: the fields that make one are those that fit their bits, no eight
bytes stand for two blocks or for none, and an integer keeps its sign on the way there and back. -/
theorem packs_bit_exactly (key tag value : Nat) (integer : Int) (block : PropertyBlock)
    {bytes : List UInt8} (eight : bytes.length = 8) :
    ((∃ made, make key tag value = .ok made) ↔ key < 2 ^ 4 ∧ tag < 2 ^ 24 ∧ value < 2 ^ 36) ∧
      (∀ made, make key tag value = .ok made →
        made.key.toNat = key ∧ made.tag.toNat = tag ∧ made.value.toNat = value) ∧
      (block.pack.length = 8 ∧ unpack block.pack = block ∧ block.pack = block.layout ∧
        bigEndian block.pack =
          block.key.toNat * 2 ^ 60 + block.tag.toNat * 2 ^ 36 + block.value.toNat) ∧
      (pack (unpack bytes) = bytes ∧
        bigEndian bytes =
          (unpack bytes).key.toNat * 2 ^ 60 + (unpack bytes).tag.toNat * 2 ^ 36 +
            (unpack bytes).value.toNat) ∧
      ((∃ made, ofInt key integer = .ok made) ↔
        key < 2 ^ 4 ∧ -2 ^ 35 ≤ integer ∧ integer < 2 ^ 35) ∧
      ∀ made, ofInt key integer = .ok made →
        made.toInt = integer ∧ (unpack made.pack).toInt = integer ∧
          (signed made.value).toInt = integer := by
  refine ⟨exists_make_iff, fun _ => make_eq_ok, ⟨length_pack block, unpack_pack block,
    pack_eq_layout block, bigEndian_pack block⟩, ⟨pack_unpack eight, (toNat_unpack eight).symm⟩,
    exists_ofInt_iff, ?_⟩
  intro made given
  have same : made.toInt = integer := (ofInt_eq_ok given).2.2
  refine ⟨same, ?_, ?_⟩
  · rw [unpack_pack, same]
  · rw [toInt_signed]
    exact same

/-- The least integer there is room for, and bytes in which every half differs from the others. -/
theorem packs_bit_exactly_nibbles :
    let bytes : List UInt8 := [0xA1, 0x23, 0x45, 0x67, 0x89, 0xAB, 0xCD, 0xEF]
    let block : PropertyBlock := ⟨0xA, 0x123456, 0x789ABCDEF⟩
    bytes.length = 8 ∧ pack (unpack bytes) = bytes ∧ unpack bytes = block ∧ block.layout = bytes ∧
      ∃ made, ofInt 3 (-2 ^ 35) = .ok made ∧ (unpack made.pack).toInt = -2 ^ 35 := by
  intro bytes block
  have eight : bytes.length = 8 := rfl
  obtain ⟨_, _, ⟨_, same, packed, _⟩, ⟨again, _⟩, fits, integers⟩ :=
    packs_bit_exactly 3 0 0 (-2 ^ 35) block eight
  have spelled : block.layout = bytes := by decide
  obtain ⟨made, given⟩ := fits.mpr (by decide)
  refine ⟨eight, again, ?_, spelled, made, given, (integers made given).2.1⟩
  rw [← same, packed, spelled]

end PropertyBlock

end GraphStore
