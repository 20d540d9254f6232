/-!
# Slices of equal length

Cutting a sequence into parts of one length. The last part may be shorter.
-/

set_option autoImplicit false

namespace GraphStore

/-- The first `count` parts of `length` items each. -/
def slices {α : Type} (length : Nat) : (count : Nat) → List α → List (List α)
  | 0, _ => []
  | count + 1, items => items.take length :: slices length count (items.drop length)

def sliceCount (length total : Nat) : Nat := (total + length - 1) / length

@[simp] theorem length_slices {α : Type} (length count : Nat) (items : List α) :
    (slices length count items).length = count := by
  induction count generalizing items with
  | zero => rfl
  | succ count ih => simp [slices, ih]

theorem flatten_slices {α : Type} (length count : Nat) (items : List α)
    (enough : items.length ≤ length * count) : (slices length count items).flatten = items := by
  induction count generalizing items with
  | zero => simp_all [slices]
  | succ count ih =>
      rw [slices, List.flatten_cons, ih, List.take_append_drop]
      rw [List.length_drop]
      rw [Nat.mul_succ] at enough
      omega

end GraphStore
