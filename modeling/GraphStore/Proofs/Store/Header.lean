import GraphStore.Proofs.Bytes.Fields
import GraphStore.Proofs.Success
import GraphStore.Store.Header
import Mathlib.Data.List.Basic

/-!
# Headers that are read back

Main statements: headers and the byte sequences that are accepted correspond to each other, and the
header of a new file passes the checks of its kind.
-/

set_option autoImplicit false

namespace GraphStore

private theorem u16_eq_pair (endian : Endian) (value : UInt16) :
    ∃ first second, Field.u16 endian value = [first, second] ∧
      UInt16.ofNat (endian.read [first, second]) = value := by
  obtain ⟨first, second, pair⟩ := List.length_eq_two.mp (Field.length_u16 endian value)
  refine ⟨first, second, pair, ?_⟩
  have number : endian.read [first, second] = value.toNat := by
    rw [← pair, Field.u16, Endian.read_write, Nat.mod_eq_of_lt value.toNat_lt]
  rw [number, UInt16.ofNat_toNat]

theorem Endian.flag_of_ofFlag? {flag : UInt8} {endian : Endian}
    (found : Endian.ofFlag? flag = some endian) : endian.flag = flag := by
  unfold Endian.ofFlag? at found
  split at found
  next zero =>
    cases found
    exact zero.symm
  next =>
    split at found
    next one =>
      cases found
      exact one.symm
    next => cases found

theorem StoreKind.id_of_ofId? {id : UInt8} {kind : StoreKind}
    (found : StoreKind.ofId? id = some kind) : kind.id = id := by
  have same := List.find?_some (p := fun kind : StoreKind => kind.id == id) found
  exact eq_of_beq same

/-- Two bytes are written again as they were read. -/
theorem Field.u16_read (endian : Endian) (first second : UInt8) :
    u16 endian (UInt16.ofNat (endian.read [first, second])) = [first, second] := by
  have bounds := And.intro first.toNat_lt second.toNat_lt
  have small : endian.read [first, second] < 65536 := by
    cases endian with
    | little =>
        simp only [Endian.read, ofLowBytes]
        omega
    | big =>
        simp only [Endian.read, ofLowBytes, List.reverse_cons, List.reverse_nil, List.nil_append,
          List.cons_append]
        omega
  have same : (UInt16.ofNat (endian.read [first, second])).toNat = endian.read [first, second] := by
    rw [UInt16.toNat_ofNat', Nat.mod_eq_of_lt small]
  rw [u16, same]
  exact endian.write_read [first, second]

namespace StoreHeader

theorem length_encode (header : StoreHeader) : header.encode.length = headerSize := by
  simp [encode, front, back, headerSize]

theorem decode_encode (path : String) (header : StoreHeader) :
    decode path header.encode = .ok header := by
  obtain ⟨magicFirst, magicSecond, magicBytes, magic⟩ := u16_eq_pair header.endian header.magic
  obtain ⟨checkFirst, checkSecond, checkBytes, check⟩ :=
    u16_eq_pair header.endian (checksum header.front header.back)
  have frontShape : header.front =
      [header.formatVersion, header.kind.id, header.headerVersion, magicFirst, magicSecond,
        header.recordSize, header.endian.flag, header.parameters.1, header.parameters.2,
        header.transaction] := by
    simp [front, magicBytes]
  have shape : header.encode =
      [header.formatVersion, header.kind.id, header.headerVersion, magicFirst, magicSecond,
        header.recordSize, header.endian.flag, header.parameters.1, header.parameters.2,
        header.transaction, checkFirst, checkSecond, header.state, header.reserved.1,
        header.reserved.2] := by
    rw [encode, checkBytes, frontShape, back]
    rfl
  have checked : checksum (header.encode.take 10) (header.encode.drop 12) =
      checksum header.front header.back := by
    rw [shape, frontShape, back]
    rfl
  rw [decode]
  simp only [length_encode, ne_eq, not_true_eq_false, ↓reduceIte, checked]
  simp only [shape, List.getD_cons_zero, List.getD_cons_succ, Endian.ofFlag?_flag,
    StoreKind.ofId?_id, List.drop_succ_cons, List.drop_zero, List.take_succ_cons,
    List.take_zero, check, magic, not_true_eq_false, ↓reduceIte]
  rfl

theorem encode_injective {header other : StoreHeader} (same : header.encode = other.encode) :
    header = other := by
  have read := decode_encode "" header
  rw [same, decode_encode] at read
  exact (Except.ok.inj read).symm

/-- Where a header is read, every byte is the one that is written for it: no byte is passed over. -/
theorem encode_of_decode {path : String} {bytes : List UInt8} {header : StoreHeader}
    (accepted : decode path bytes = .ok header) : header.encode = bytes := by
  unfold decode at accepted
  dsimp only at accepted
  split at accepted
  next => cases accepted
  next whole =>
    split at accepted
    next endian isFlag =>
      split at accepted
      next kind isKind =>
        split at accepted
        next => cases accepted
        next checked =>
          cases accepted
          match bytes, Decidable.not_not.mp whole with
          | [b0, b1, b2, b3, b4, b5, b6, b7, b8, b9, b10, b11, b12, b13, b14], _ =>
              have flag : endian.flag = b6 := Endian.flag_of_ofFlag? isFlag
              have id : kind.id = b1 := StoreKind.id_of_ofId? isKind
              have check : checksum [b0, b1, b2, b3, b4, b5, b6, b7, b8, b9] [b12, b13, b14] =
                  UInt16.ofNat (endian.read [b10, b11]) := Decidable.not_not.mp checked
              simp only [encode, front, back, List.getD_cons_zero, List.getD_cons_succ,
                List.drop_succ_cons, List.drop_zero, List.take_succ_cons, List.take_zero, flag, id,
                Field.u16_read, List.cons_append, List.nil_append, check]
      next => cases accepted
    next => cases accepted

theorem decode_eq_ok_iff {path : String} {bytes : List UInt8} {header : StoreHeader} :
    decode path bytes = .ok header ↔ header.encode = bytes := by
  constructor
  · exact encode_of_decode
  · intro written
    rw [← written, decode_encode]

/-!
## The parts of a header that is written
-/

theorem length_front (header : StoreHeader) : header.front.length = 10 := by
  simp [front]

theorem take_encode (header : StoreHeader) : header.encode.take 10 = header.front := by
  rw [encode, List.append_assoc, List.take_left' header.length_front]

theorem drop_encode (header : StoreHeader) : header.encode.drop 12 = header.back := by
  have length : (header.front ++
      Field.u16 header.endian (checksum header.front header.back)).length = 12 := by
    simp [length_front]
  rw [encode, List.drop_left' length]

theorem check_encode (header : StoreHeader) :
    (header.encode.drop 10).take 2 = Field.u16 header.endian (checksum header.front header.back) := by
  rw [encode, List.append_assoc, List.drop_left' header.length_front,
    List.take_left' (Field.length_u16 _ _)]

theorem flag_encode (header : StoreHeader) : header.encode.getD 6 0 = header.endian.flag := by
  obtain ⟨first, second, pair⟩ := List.length_eq_two.mp (Field.length_u16 header.endian header.magic)
  simp [encode, front, pair]

/-- Headers and the byte sequences that are accepted correspond to each other, and what is accepted
has the check that belongs to its other bytes, in the byte order that it names. -/
theorem decode_bijective (path : String) (header : StoreHeader) :
    header.encode.length = headerSize ∧
    (∀ bytes, decode path bytes = .ok header ↔ header.encode = bytes) ∧
    (∀ bytes other, decode path bytes = .ok header → decode path other = .ok header →
      bytes = other) ∧
    ∀ bytes, decode path bytes = .ok header →
      Endian.ofFlag? (bytes.getD 6 0) = some header.endian ∧
      header.endian.read ((bytes.drop 10).take 2) =
        (crc32 (bytes.take 10 ++ bytes.drop 12)).toNat % 0x10000 := by
  refine ⟨length_encode header, fun _ => decode_eq_ok_iff, ?_, ?_⟩
  · intro bytes other accepted again
    rw [← encode_of_decode accepted, encode_of_decode again]
  · intro bytes accepted
    rw [← encode_of_decode accepted]
    constructor
    · rw [flag_encode, Endian.ofFlag?_flag]
    · rw [check_encode, take_encode, drop_encode, Field.u16, Endian.read_write, checksum,
        UInt32.toNat_toUInt16]
      exact Nat.mod_mod _ _

/-- A header with fields that no new file has. -/
theorem decode_bijective_foreign :
    let header : StoreHeader :=
      { formatVersion := 0xFE, kind := .index, headerVersion := 0, magic := 0x1234
        recordSize := 0xFF, endian := .big, parameters := (1, 2), transaction := 3, state := 0
        reserved := (0x80, 0x7F) }
    let bytes : List UInt8 :=
      [0xFE, 8, 0, 0x12, 0x34, 0xFF, 1, 1, 2, 3, 0x73, 0xCB, 0, 0x80, 0x7F]
    decode "" bytes = .ok header ∧ header.encode = bytes ∧
      0x73CB = (crc32 [0xFE, 8, 0, 0x12, 0x34, 0xFF, 1, 1, 2, 3, 0, 0x80, 0x7F]).toNat % 0x10000 := by
  intro header bytes
  obtain ⟨-, accepts, -, checks⟩ := decode_bijective "" header
  have accepted : decode "" bytes = .ok header := by decide +kernel
  exact ⟨accepted, (accepts bytes).mp accepted, (checks bytes accepted).2⟩

theorem check_fresh (kind : StoreKind) (endian : Endian) (path : String) :
    (fresh kind endian).check kind path = .ok () := by
  cases kind <;> rfl

theorem decodeAs_fresh (kind : StoreKind) (endian : Endian) (path : String) :
    decodeAs kind path (fresh kind endian).encode = .ok (fresh kind endian) := by
  rw [decodeAs, decode_encode]
  change ((fresh kind endian).check kind path >>= fun _ => pure (fresh kind endian)) = _
  rw [check_fresh]
  rfl

end StoreHeader

end GraphStore
