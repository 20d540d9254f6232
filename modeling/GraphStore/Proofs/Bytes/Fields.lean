import GraphStore.Bytes.Endian

/-!
# Reading fields back

A field that stands at the front of some bytes is read back, and what is behind it is left. Main
statements: one such lemma for each kind of field, and one for readers in sequence.
-/

set_option autoImplicit false

namespace GraphStore

namespace FieldReader

variable {α β : Type}

theorem bind_apply (reader : FieldReader α) (next : α → FieldReader β) (items : List UInt8) :
    (reader >>= next) items = next (reader items).1 (reader items).2 := rfl

theorem pure_apply (value : α) (items : List UInt8) :
    (pure value : FieldReader α) items = (value, items) := rfl

/-- A reader in a sequence hands on what it reads and leaves. -/
theorem bind_of_eq {reader : FieldReader α} {items rest : List UInt8} {value : α}
    (given : reader items = (value, rest)) (next : α → FieldReader β) :
    (reader >>= next) items = next value rest := by
  rw [bind_apply, given]

theorem bytes_append {front : List UInt8} {count : Nat} (length : front.length = count)
    (rest : List UInt8) : bytes count (front ++ rest) = (front, rest) := by
  rw [bytes, List.take_left' length, List.drop_left' length]

theorem u8_cons (byte : UInt8) (rest : List UInt8) : u8 (byte :: rest) = (byte, rest) := rfl

theorem flag_append (value : Bool) (rest : List UInt8) :
    flag (Field.flag value ++ rest) = (value, rest) := by
  cases value <;> rfl

theorem u16_append (endian : Endian) (value : UInt16) (rest : List UInt8) :
    u16 endian (Field.u16 endian value ++ rest) = (value, rest) := by
  have bound := value.toNat_lt
  have length : (Field.u16 endian value).length = 2 := endian.length_write 2 _
  have number : endian.read (Field.u16 endian value) = value.toNat := by
    rw [Field.u16, Endian.read_write, Nat.mod_eq_of_lt bound]
  rw [u16, bind_of_eq (bytes_append length rest), pure_apply, number, UInt16.ofNat_toNat]

theorem u32_append (endian : Endian) (value : UInt32) (rest : List UInt8) :
    u32 endian (Field.u32 endian value ++ rest) = (value, rest) := by
  have bound := value.toNat_lt
  have length : (Field.u32 endian value).length = 4 := endian.length_write 4 _
  have number : endian.read (Field.u32 endian value) = value.toNat := by
    rw [Field.u32, Endian.read_write, Nat.mod_eq_of_lt bound]
  rw [u32, bind_of_eq (bytes_append length rest), pure_apply, number, UInt32.ofNat_toNat]

/-- A pointer is read back, unless it points at the number that stands for none. -/
theorem pointer_append (endian : Endian) {value : Option RecordId}
    (present : value ≠ some absentId) (rest : List UInt8) :
    pointer endian (Field.pointer endian value ++ rest) = (value, rest) := by
  rw [pointer, Field.pointer, bind_of_eq (u32_append endian _ rest), pure_apply]
  cases value with
  | none => rfl
  | some id =>
      have differs : id ≠ absentId := fun same => present (same ▸ rfl)
      rw [Option.getD_some, if_neg differs]

theorem shortPointer_append (endian : Endian) {value : Option UInt16}
    (present : value ≠ some absentShortId) (rest : List UInt8) :
    shortPointer endian (Field.shortPointer endian value ++ rest) = (value, rest) := by
  rw [shortPointer, Field.shortPointer, bind_of_eq (u16_append endian _ rest), pure_apply]
  cases value with
  | none => rfl
  | some id =>
      have differs : id ≠ absentShortId := fun same => present (same ▸ rfl)
      rw [Option.getD_some, if_neg differs]

/-!
## How far readers go
-/

/-- Whether a reader takes its value from the first `count` bytes and leaves whatever is behind
them. -/
def Takes (reader : FieldReader α) (count : Nat) : Prop :=
  ∀ front rest, front.length = count → reader (front ++ rest) = ((reader front).1, rest)

theorem Takes.pure (value : α) : Takes (pure value : FieldReader α) 0 := by
  intro front rest length
  rw [List.length_eq_zero_iff.mp length, List.nil_append, pure_apply, pure_apply]

theorem Takes.bind {reader : FieldReader α} {next : α → FieldReader β} {count more : Nat}
    (first : Takes reader count) (second : ∀ value, Takes (next value) more) :
    Takes (reader >>= next) (count + more) := by
  intro front rest length
  have split : front.take count ++ front.drop count = front := List.take_append_drop count front
  have near : (front.take count).length = count := by rw [List.length_take]; omega
  have far : (front.drop count).length = more := by rw [List.length_drop]; omega
  rw [bind_apply, bind_apply, ← split, List.append_assoc, first _ _ near, first _ _ near]
  exact second _ _ rest far

theorem takes_bytes (count : Nat) : Takes (bytes count) count := by
  intro front rest length
  rw [bytes_append length rest, bytes, List.take_of_length_le (Nat.le_of_eq length)]

theorem takes_u8 : Takes u8 1 := (takes_bytes 1).bind fun _ => .pure _

theorem takes_flag : Takes flag 1 := takes_u8.bind fun _ => .pure _

theorem takes_u32 (endian : Endian) : Takes (u32 endian) 4 := (takes_bytes 4).bind fun _ => .pure _

theorem takes_pointer (endian : Endian) : Takes (pointer endian) 4 :=
  (takes_u32 endian).bind fun _ => .pure _

theorem takes_shortPointer (endian : Endian) : Takes (shortPointer endian) 2 := by
  have number : Takes (u16 endian) 2 := (takes_bytes 2).bind fun _ => .pure _
  exact number.bind fun _ => .pure _

/-!
## Pointers at the number that stands for none
-/

@[simp] theorem filter_fst_pointer (endian : Endian) (items : List UInt8) :
    (pointer endian items).1.filter (· != absentId) = (pointer endian items).1 := by
  simp only [pointer, bind_apply, pure_apply]
  split
  · rfl
  next differs => rw [Option.filter_some, if_pos (by simpa using differs)]

@[simp] theorem filter_fst_shortPointer (endian : Endian) (items : List UInt8) :
    (shortPointer endian items).1.filter (· != absentShortId) = (shortPointer endian items).1 := by
  simp only [shortPointer, bind_apply, pure_apply]
  split
  · rfl
  next differs => rw [Option.filter_some, if_pos (by simpa using differs)]

end FieldReader

namespace Field

@[simp] theorem length_flag (value : Bool) : (flag value).length = 1 := rfl

@[simp] theorem length_u16 (endian : Endian) (value : UInt16) : (u16 endian value).length = 2 :=
  endian.length_write 2 _

@[simp] theorem length_u32 (endian : Endian) (value : UInt32) : (u32 endian value).length = 4 :=
  endian.length_write 4 _

@[simp] theorem length_pointer (endian : Endian) (value : Option RecordId) :
    (pointer endian value).length = 4 := length_u32 endian _

@[simp] theorem length_shortPointer (endian : Endian) (value : Option UInt16) :
    (shortPointer endian value).length = 2 := length_u16 endian _

theorem length_padded {width : Nat} {bytes : List UInt8} (fits : bytes.length ≤ width) :
    (padded width bytes).length = width := by
  rw [padded, List.length_append, List.length_replicate]
  omega

/-- A pointer at the number that stands for none is written as none. -/
theorem pointer_filter (endian : Endian) (value : Option RecordId) :
    pointer endian (value.filter (· != absentId)) = pointer endian value := by
  cases value with
  | none => rfl
  | some id =>
      by_cases absent : id = absentId
      · subst absent
        rfl
      · rw [Option.filter_some, if_pos (by simpa using absent)]

theorem shortPointer_filter (endian : Endian) (value : Option UInt16) :
    shortPointer endian (value.filter (· != absentShortId)) = shortPointer endian value := by
  cases value with
  | none => rfl
  | some id =>
      by_cases absent : id = absentShortId
      · subst absent
        rfl
      · rw [Option.filter_some, if_pos (by simpa using absent)]

theorem take_padded (width : Nat) (bytes : List UInt8) :
    (padded width bytes).take bytes.length = bytes := by
  rw [padded, List.take_left]

end Field

end GraphStore
