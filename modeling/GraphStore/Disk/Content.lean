/-!
# Contents of files

The bytes of a file, kept in stretches. A stretch of zeros is kept as its length, so that a file
that was made long and never written takes no room. Main statements: `toList` of every operation is
the list operation of that name, and `size` is the length of the list.
-/

set_option autoImplicit false

namespace GraphStore

/-- A stretch of the bytes of a file. -/
inductive Stretch where
  | written (bytes : List UInt8)
  | zeros (count : Nat)
deriving Repr, DecidableEq

namespace Stretch

def toList : Stretch → List UInt8
  | written bytes => bytes
  | zeros count => List.replicate count 0

def size : Stretch → Nat
  | written bytes => bytes.length
  | zeros count => count

def take (count : Nat) : Stretch → Stretch
  | written bytes => written (bytes.take count)
  | zeros held => zeros (min count held)

def drop (count : Nat) : Stretch → Stretch
  | written bytes => written (bytes.drop count)
  | zeros held => zeros (held - count)

theorem length_toList (stretch : Stretch) : stretch.toList.length = stretch.size := by
  cases stretch <;> simp [toList, size]

theorem toList_take (count : Nat) (stretch : Stretch) :
    (stretch.take count).toList = stretch.toList.take count := by
  cases stretch <;> simp [toList, take]

theorem toList_drop (count : Nat) (stretch : Stretch) :
    (stretch.drop count).toList = stretch.toList.drop count := by
  cases stretch <;> simp [toList, drop]

end Stretch

/-- The bytes of a file. -/
structure Content where
  stretches : List Stretch
deriving Repr, DecidableEq, Inhabited

namespace Content

def toList (content : Content) : List UInt8 := content.stretches.flatMap Stretch.toList

def empty : Content := ⟨[]⟩

def size (content : Content) : Nat :=
  content.stretches.foldr (fun stretch total => stretch.size + total) 0

/-- The stretches of the first `count` bytes. -/
def takeStretches (count : Nat) : List Stretch → List Stretch
  | [] => []
  | stretch :: rest =>
      if count = 0 then [] else stretch.take count :: takeStretches (count - stretch.size) rest

/-- The stretches behind the first `count` bytes. -/
def dropStretches (count : Nat) : List Stretch → List Stretch
  | [] => []
  | stretch :: rest =>
      if count < stretch.size then stretch.drop count :: rest
      else dropStretches (count - stretch.size) rest

/-- The first `count` bytes, or all if there are fewer. -/
def take (count : Nat) (content : Content) : Content := ⟨takeStretches count content.stretches⟩

/-- The bytes behind the first `count`. -/
def drop (count : Nat) (content : Content) : Content := ⟨dropStretches count content.stretches⟩

def append (content : Content) (bytes : List UInt8) : Content :=
  ⟨content.stretches ++ [.written bytes]⟩

/-- Cut to a size, or filled up with zeros. -/
def resize (size : Nat) (content : Content) : Content :=
  ⟨(content.take size).stretches ++ [.zeros (size - content.size)]⟩

/-- Bytes written over those from an offset on. Zeros fill a gap behind the former end. -/
def overwrite (offset : Nat) (bytes : List UInt8) (content : Content) : Content :=
  ⟨((content.resize offset).append bytes).stretches ++
    (content.drop (offset + bytes.length)).stretches⟩

/-- At most `count` bytes from an offset on. -/
def slice (offset count : Nat) (content : Content) : List UInt8 :=
  ((content.drop offset).take count).toList

/-!
## The bytes of a content
-/

@[simp] theorem toList_empty : empty.toList = [] := rfl

theorem size_eq_length (content : Content) : content.size = content.toList.length := by
  obtain ⟨stretches⟩ := content
  induction stretches with
  | nil => rfl
  | cons stretch rest ih =>
      simp only [size, toList, List.foldr_cons, List.flatMap_cons, List.length_append,
        Stretch.length_toList] at ih ⊢
      rw [ih]

@[simp] theorem toList_append (content : Content) (bytes : List UInt8) :
    (content.append bytes).toList = content.toList ++ bytes := by
  simp [toList, append, Stretch.toList]

@[simp] theorem toList_take (count : Nat) (content : Content) :
    (content.take count).toList = content.toList.take count := by
  obtain ⟨stretches⟩ := content
  induction stretches generalizing count with
  | nil => simp [toList, take, takeStretches]
  | cons stretch rest ih =>
      simp only [toList, take, takeStretches, List.flatMap_cons] at ih ⊢
      split
      next none => simp [none]
      next =>
        rw [List.flatMap_cons, ih, Stretch.toList_take, List.take_append, Stretch.length_toList]

@[simp] theorem toList_drop (count : Nat) (content : Content) :
    (content.drop count).toList = content.toList.drop count := by
  obtain ⟨stretches⟩ := content
  induction stretches generalizing count with
  | nil => simp [toList, drop, dropStretches]
  | cons stretch rest ih =>
      simp only [toList, drop, dropStretches, List.flatMap_cons] at ih ⊢
      have held := Stretch.length_toList stretch
      split
      next inside =>
        rw [List.flatMap_cons, Stretch.toList_drop, List.drop_append_of_le_length (by omega)]
      next beyond =>
        have passed : stretch.toList.drop count = [] := List.drop_eq_nil_of_le (by omega)
        rw [ih, List.drop_append, held, passed, List.nil_append]

@[simp] theorem toList_resize (size : Nat) (content : Content) :
    (content.resize size).toList =
      content.toList.take size ++ List.replicate (size - content.toList.length) 0 := by
  have shortened := toList_take size content
  simp only [toList] at shortened
  simp [toList, resize, Stretch.toList, shortened, size_eq_length]

@[simp] theorem toList_overwrite (offset : Nat) (bytes : List UInt8) (content : Content) :
    (content.overwrite offset bytes).toList =
      content.toList.take offset ++ List.replicate (offset - content.toList.length) 0 ++ bytes ++
        content.toList.drop (offset + bytes.length) := by
  have front := toList_append (content.resize offset) bytes
  have back := toList_drop (offset + bytes.length) content
  rw [toList_resize] at front
  simp only [toList] at front back
  simp only [toList, overwrite, List.flatMap_append, front, back]

theorem slice_eq (offset count : Nat) (content : Content) :
    content.slice offset count = (content.toList.drop offset).take count := by
  simp [slice]

end Content

end GraphStore
