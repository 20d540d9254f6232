import GraphStore.Bytes.Checksum
import GraphStore.Bytes.Endian

/-!
# Differences of checked bytes

Main statement: what a difference between two byte sequences does to their check depends on the
difference alone, and not on the bytes.
-/

set_option autoImplicit false

namespace GraphStore

namespace Crc32

/-!
## One shift
-/

theorem and_one_eq_one_iff (remainder : UInt32) :
    remainder &&& 1 = 1 ↔ remainder.toBitVec.getLsbD 0 = true := by
  have low : (remainder &&& 1).toBitVec =
      BitVec.setWidth 32 (BitVec.ofBool (remainder.toBitVec.getLsbD 0)) := by
    rw [UInt32.toBitVec_and]
    exact BitVec.and_one_eq_setWidth_ofBool_getLsbD
  rw [← UInt32.toBitVec_inj, low]
  cases remainder.toBitVec.getLsbD 0 <;> decide

theorem xor_xor_cancel (left right both : UInt32) :
    left ^^^ both ^^^ (right ^^^ both) = left ^^^ right := by
  have moved : left ^^^ both ^^^ (right ^^^ both) = left ^^^ right ^^^ (both ^^^ both) := by ac_rfl
  rw [moved, UInt32.xor_self, UInt32.xor_zero]

/-- A shift takes the polynomial away where the lowest bit is set. Two such bits turn each other
off, and so do the two polynomials. -/
theorem shift_xor (left right : UInt32) :
    shift (left ^^^ right) = shift left ^^^ shift right := by
  simp only [shift, and_one_eq_one_iff, UInt32.toBitVec_xor, BitVec.getLsbD_xor,
    UInt32.shiftRight_xor]
  cases left.toBitVec.getLsbD 0 with
  | false =>
      cases right.toBitVec.getLsbD 0 with
      | false => rfl
      | true => exact UInt32.xor_assoc _ _ _
  | true =>
      cases right.toBitVec.getLsbD 0 with
      | false =>
          change left >>> 1 ^^^ right >>> 1 ^^^ _ = left >>> 1 ^^^ _ ^^^ right >>> 1
          ac_rfl
      | true => exact (xor_xor_cancel _ _ _).symm

/-!
## Bytes
-/

theorem foldl_shift_xor (steps : List Nat) (left right : UInt32) :
    steps.foldl (fun remainder _ => shift remainder) (left ^^^ right) =
      steps.foldl (fun remainder _ => shift remainder) left ^^^
        steps.foldl (fun remainder _ => shift remainder) right := by
  induction steps generalizing left right with
  | nil => rfl
  | cons _ rest ih => rw [List.foldl_cons, List.foldl_cons, List.foldl_cons, shift_xor, ih]

theorem update_xor (left right : UInt32) (byte error : UInt8) :
    update (left ^^^ right) (byte ^^^ error) = update left byte ^^^ update right error := by
  have parts : left ^^^ right ^^^ (byte ^^^ error).toUInt32 =
      (left ^^^ byte.toUInt32) ^^^ (right ^^^ error.toUInt32) := by
    rw [UInt8.toUInt32_xor]
    ac_rfl
  rw [update, parts, foldl_shift_xor, update, update]

theorem foldl_update_xor {bytes errors : List UInt8} (same : bytes.length = errors.length)
    (left right : UInt32) :
    (bytes.zipWith (· ^^^ ·) errors).foldl update (left ^^^ right) =
      bytes.foldl update left ^^^ errors.foldl update right := by
  induction bytes generalizing errors left right with
  | nil =>
      obtain rfl := List.length_eq_zero_iff.mp same.symm
      rfl
  | cons byte rest ih =>
      cases errors with
      | nil => cases same
      | cons error others =>
          rw [List.zipWith_cons_cons, List.foldl_cons, update_xor, List.foldl_cons, List.foldl_cons]
          exact ih (Nat.succ.inj same) _ _

/-- What a difference between byte sequences does to their check. -/
def effect (errors : List UInt8) : UInt32 := errors.foldl update 0

theorem crc32_zipWith_xor {bytes errors : List UInt8} (same : bytes.length = errors.length) :
    crc32 (bytes.zipWith (· ^^^ ·) errors) = crc32 bytes ^^^ effect errors := by
  have folded := foldl_update_xor same 0xFFFFFFFF 0
  rw [UInt32.xor_zero] at folded
  rw [crc32, folded, crc32, effect]
  ac_rfl

end Crc32

/-!
## Numbers of two bytes
-/

namespace Field

/-- The bytes of a difference are the differences of the bytes, in either order. -/
theorem u16_xor (endian : Endian) (left right : UInt16) :
    u16 endian (left ^^^ right) = (u16 endian left).zipWith (· ^^^ ·) (u16 endian right) := by
  have low : UInt8.ofNat (left.toNat ^^^ right.toNat) =
      UInt8.ofNat left.toNat ^^^ UInt8.ofNat right.toNat := UInt8.ofNat_xor _ _
  have high : UInt8.ofNat ((left.toNat ^^^ right.toNat) / 256) =
      UInt8.ofNat (left.toNat / 256) ^^^ UInt8.ofNat (right.toNat / 256) := by
    have halves : (left.toNat ^^^ right.toNat) / 256 = left.toNat / 256 ^^^ right.toNat / 256 :=
      Nat.xor_div_two_pow (n := 8)
    rw [halves, UInt8.ofNat_xor]
  cases endian with
  | little =>
      simp only [u16, Endian.write, lowBytes, UInt16.toNat_xor, low, high, List.zipWith_cons_cons,
        List.zipWith_nil_left]
  | big => simp [u16, Endian.write, lowBytes, UInt16.toNat_xor, low, high]

theorem exists_u16_pair (value : UInt16) :
    ∃ low high, u16 .little value = [low, high] ∧ u16 .big value = [high, low] :=
  ⟨_, _, rfl, rfl⟩

end Field

end GraphStore
