import GraphStore.Proofs.Bytes.Checksum
import GraphStore.Proofs.Store.Header

/-!
# Headers that were damaged

Main statement: a header in which a single bit is turned is refused, whichever bit this is, also the
one that says in which byte order the check is read. The check keeps half of a CRC-32 only, so that
what each bit does to this half is computed, once for all headers, because the check is linear.
-/

set_option autoImplicit false

namespace GraphStore

/-!
## Turned bits
-/

/-- The byte with a single bit, counted from the lowest one. -/
def singleBit (bit : Nat) : UInt8 := 1 <<< UInt8.ofNat bit

/-- A byte sequence with one of its bits turned, where every byte has eight and begins with the
lowest. -/
def flipBit (bytes : List UInt8) (bit : Nat) : List UInt8 :=
  bytes.modify (bit / 8) (· ^^^ singleBit (bit % 8))

/-- The difference that a turned bit makes to byte sequences of some length. -/
def flippedBit (length bit : Nat) : List UInt8 := flipBit (List.replicate length 0) bit

@[simp] theorem length_flipBit (bytes : List UInt8) (bit : Nat) :
    (flipBit bytes bit).length = bytes.length := List.length_modify _ _ _

@[simp] theorem length_flippedBit (length bit : Nat) : (flippedBit length bit).length = length := by
  simp [flippedBit]

theorem flipBit_eq_zipWith (bytes : List UInt8) (bit : Nat) :
    flipBit bytes bit = bytes.zipWith (· ^^^ ·) (flippedBit bytes.length bit) := by
  apply List.ext_getElem?
  intro place
  rw [flippedBit, flipBit, flipBit, List.getElem?_zipWith, List.getElem?_modify,
    List.getElem?_modify]
  by_cases inside : place < bytes.length
  · rw [List.getElem?_eq_getElem inside, List.getElem?_replicate_of_lt inside]
    by_cases here : bit / 8 = place
    · simp [here]
    · simp [here]
  · rw [List.getElem?_eq_none (Nat.le_of_not_lt inside)]
    simp

theorem getD_flipBit_of_ne {bytes : List UInt8} {bit place : Nat} (elsewhere : bit / 8 ≠ place) :
    (flipBit bytes bit).getD place 0 = bytes.getD place 0 := by
  simp [flipBit, List.getD_eq_getElem?_getD, elsewhere]

theorem getD_flipBit_self {bytes : List UInt8} {bit place : Nat} (here : bit / 8 = place)
    (inside : place < bytes.length) :
    (flipBit bytes bit).getD place 0 = bytes.getD place 0 ^^^ singleBit (bit % 8) := by
  simp [flipBit, List.getD_eq_getElem?_getD, here, inside]

namespace StoreHeader

/-!
## Differences of headers
-/

/-- What a difference between headers does to the check over their other bytes. -/
def effect (errors : List UInt8) : UInt16 :=
  (Crc32.effect (errors.take 10 ++ errors.drop 12)).toUInt16

/-- What a difference does to the bytes of the check. -/
def checkPart (errors : List UInt8) : List UInt8 := (errors.drop 10).take 2

variable {header other : StoreHeader} {bit : Nat}

theorem checksum_of_flipBit (flipped : flipBit header.encode bit = other.encode) :
    checksum other.front other.back =
      checksum header.front header.back ^^^ effect (flippedBit headerSize bit) := by
  have length := length_flippedBit headerSize bit
  rw [flipBit_eq_zipWith, length_encode] at flipped
  have front : other.front =
      header.front.zipWith (· ^^^ ·) ((flippedBit headerSize bit).take 10) := by
    rw [← take_encode, ← flipped, List.take_zipWith, take_encode]
  have back : other.back =
      header.back.zipWith (· ^^^ ·) ((flippedBit headerSize bit).drop 12) := by
    rw [← drop_encode, ← flipped, List.drop_zipWith, drop_encode]
  have fronts : header.front.length = ((flippedBit headerSize bit).take 10).length := by
    rw [length_front, List.length_take, length]
    rfl
  have backs : header.back.length = ((flippedBit headerSize bit).drop 12).length := by
    rw [List.length_drop, length]
    rfl
  have whole : (header.front ++ header.back).length =
      ((flippedBit headerSize bit).take 10 ++ (flippedBit headerSize bit).drop 12).length := by
    rw [List.length_append, List.length_append, fronts, backs]
  rw [checksum, front, back, ← List.zipWith_append fronts, Crc32.crc32_zipWith_xor whole,
    UInt32.toUInt16_xor, checksum, effect]

theorem check_of_flipBit (flipped : flipBit header.encode bit = other.encode) :
    Field.u16 other.endian (checksum other.front other.back) =
      (Field.u16 header.endian (checksum header.front header.back)).zipWith (· ^^^ ·)
        (checkPart (flippedBit headerSize bit)) := by
  rw [flipBit_eq_zipWith, length_encode] at flipped
  rw [← check_encode, ← flipped, List.drop_zipWith, List.take_zipWith, check_encode, checkPart]

/-!
## The same byte order
-/

/-- No bit does to the check what it does to the bytes of the check: those in front of it and behind
it change the check and not its bytes, and those inside change its bytes and not the check. -/
theorem effect_flippedBit (endian : Endian) :
    ∀ bit < 8 * headerSize, Field.u16 endian (effect (flippedBit headerSize bit)) ≠
      checkPart (flippedBit headerSize bit) := by
  cases endian with
  | little => decide +kernel
  | big => decide +kernel

theorem zipWith_xor_inj {bytes left right : List UInt8} (first : left.length = bytes.length)
    (second : right.length = bytes.length)
    (same : bytes.zipWith (· ^^^ ·) left = bytes.zipWith (· ^^^ ·) right) : left = right := by
  induction bytes generalizing left right with
  | nil => rw [List.length_eq_zero_iff.mp first, List.length_eq_zero_iff.mp second]
  | cons byte rest ih =>
      match left, right with
      | error :: errors, mistake :: mistakes =>
          rw [List.zipWith_cons_cons, List.zipWith_cons_cons, List.cons.injEq,
            UInt8.xor_right_inj] at same
          rw [same.1, ih (Nat.succ.inj first) (Nat.succ.inj second) same.2]

theorem flipBit_ne_of_endian_eq (inside : bit < 8 * headerSize)
    (order : other.endian = header.endian) : flipBit header.encode bit ≠ other.encode := by
  intro flipped
  have check := check_of_flipBit flipped
  rw [checksum_of_flipBit flipped, order, Field.u16_xor] at check
  refine effect_flippedBit header.endian bit inside (zipWith_xor_inj ?_ ?_ check)
  · simp
  · simp [checkPart, headerSize]

/-!
## The other byte order
-/

theorem bit_eq_of_flag {endian changed : Endian} {bit : Nat} (inside : bit < 8)
    (flipped : endian.flag ^^^ singleBit bit = changed.flag) : bit = 0 := by
  cases endian <;> cases changed <;> revert bit <;> decide

/-- A header whose turned bit leaves another byte order has turned the lowest bit of the flag. -/
theorem bit_eq_of_endian_ne (order : other.endian ≠ header.endian)
    (flipped : flipBit header.encode bit = other.encode) : bit = 48 := by
  have flag : (flipBit header.encode bit).getD 6 0 = other.endian.flag := by
    rw [flipped, flag_encode]
  by_cases here : bit / 8 = 6
  · have inside : 6 < header.encode.length := by
      rw [length_encode]
      decide
    rw [getD_flipBit_self here inside, flag_encode] at flag
    have low : bit % 8 = 0 := bit_eq_of_flag (Nat.mod_lt bit (by decide)) flag
    omega
  · rw [getD_flipBit_of_ne here, flag_encode] at flag
    have same := Endian.ofFlag?_flag header.endian
    rw [flag, Endian.ofFlag?_flag] at same
    exact absurd (Option.some.inj same) order

/-- The flag changes the two bytes of the check by different amounts, so that the changed check
never has the bytes of the old one in the other order. -/
theorem u16_flag_ne (endian order : Endian) (differs : order ≠ endian) (check : UInt16) :
    Field.u16 order (check ^^^ effect (flippedBit headerSize 48)) ≠ Field.u16 endian check := by
  obtain ⟨low, high, little, big⟩ := Field.exists_u16_pair check
  have changes : effect (flippedBit headerSize 48) = 0x0BB4 := by decide +kernel
  have apart : ∀ low high : UInt8, low ^^^ 0xB4 = high → high ^^^ 0x0B = low → False := by
    intro low high up down
    rw [← up, UInt8.xor_assoc] at down
    have none : low ^^^ (0xB4 ^^^ 0x0B) = low ^^^ 0 := by rw [down, UInt8.xor_zero]
    exact absurd ((UInt8.xor_right_inj low).mp none) (by decide)
  intro same
  rw [changes, Field.u16_xor] at same
  cases order with
  | little =>
      cases endian with
      | little => exact differs rfl
      | big =>
          rw [little, big] at same
          have parts := List.cons.inj same
          exact apart low high parts.1 (List.cons.inj parts.2).1
  | big =>
      cases endian with
      | little =>
          rw [little, big] at same
          have parts := List.cons.inj same
          exact apart low high (List.cons.inj parts.2).1 parts.1
      | big => exact differs rfl

theorem flipBit_ne_of_endian_ne (order : other.endian ≠ header.endian) :
    flipBit header.encode bit ≠ other.encode := by
  intro flipped
  obtain rfl := bit_eq_of_endian_ne order flipped
  have check := check_of_flipBit flipped
  have untouched : checkPart (flippedBit headerSize 48) = [0, 0] := by decide
  obtain ⟨first, second, pair⟩ := List.length_eq_two.mp
    (Field.length_u16 header.endian (checksum header.front header.back))
  rw [checksum_of_flipBit flipped, untouched, pair] at check
  refine u16_flag_ne header.endian other.endian order (checksum header.front header.back) ?_
  rw [check, pair]
  simp

/-!
## Refusal
-/

/-- Bytes of the right number are accepted, or refused for what they say. -/
theorem decode_eq_ok_or_error {bytes : List UInt8} (path : String)
    (whole : bytes.length = headerSize) :
    (∃ header, decode path bytes = .ok header) ∨
      ∃ reason, decode path bytes = .error (.incompatibleStore path reason) := by
  unfold decode
  dsimp only
  split
  next odd => exact absurd whole odd
  next =>
    split
    next =>
      split
      next =>
        split
        next => exact .inr ⟨_, rfl⟩
        next => exact .inl ⟨_, rfl⟩
      next => exact .inr ⟨_, rfl⟩
    next => exact .inr ⟨_, rfl⟩

/-- A header with a single turned bit is refused, whichever bit this is. -/
theorem decode_flipBit (path : String) (header : StoreHeader) (bit : Fin (8 * headerSize)) :
    ∃ reason, decode path (flipBit header.encode bit) = .error (.incompatibleStore path reason) := by
  have whole : (flipBit header.encode bit).length = headerSize := by
    rw [length_flipBit, length_encode]
  obtain ⟨other, accepted⟩ | refused := decode_eq_ok_or_error path whole
  · have flipped := (encode_of_decode accepted).symm
    by_cases order : other.endian = header.endian
    · exact absurd flipped (flipBit_ne_of_endian_eq bit.isLt order)
    · exact absurd flipped (flipBit_ne_of_endian_ne order)
  · exact refused

end StoreHeader

end GraphStore
