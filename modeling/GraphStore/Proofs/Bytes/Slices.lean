import GraphStore.Bytes.Slices

/-!
# Items written one after the other

A sequence of items, each of which is written with the same length. The written items are found
again by their numbers, and one of them can be written over where it stands.
-/

set_option autoImplicit false

namespace GraphStore

variable {α β : Type} {items : List α} {write : α → List β} {length : Nat}

theorem length_flatMap_of_forall (equal : ∀ item ∈ items, (write item).length = length) :
    (items.flatMap write).length = items.length * length := by
  induction items with
  | nil => simp
  | cons item rest ih =>
      obtain ⟨here, others⟩ := List.forall_mem_cons.mp equal
      rw [List.flatMap_cons, List.length_append, here, ih others, List.length_cons, Nat.succ_mul,
        Nat.add_comm]

theorem drop_flatMap_of_forall (equal : ∀ item ∈ items, (write item).length = length)
    (count : Nat) : (items.flatMap write).drop (count * length) = (items.drop count).flatMap write := by
  induction items generalizing count with
  | nil => simp
  | cons item rest ih =>
      obtain ⟨here, others⟩ := List.forall_mem_cons.mp equal
      cases count with
      | zero => simp
      | succ count =>
          rw [List.drop_succ_cons, ← ih others, List.flatMap_cons, Nat.succ_mul,
            Nat.add_comm, ← List.drop_drop, List.drop_left' here]

theorem take_flatMap_of_forall (equal : ∀ item ∈ items, (write item).length = length)
    (count : Nat) : (items.flatMap write).take (count * length) = (items.take count).flatMap write := by
  induction items generalizing count with
  | nil => simp
  | cons item rest ih =>
      obtain ⟨here, others⟩ := List.forall_mem_cons.mp equal
      cases count with
      | zero => simp
      | succ count =>
          have split : (count + 1) * length = (write item).length + count * length := by
            rw [here, Nat.succ_mul, Nat.add_comm]
          rw [List.take_succ_cons, List.flatMap_cons, List.flatMap_cons, split,
            List.take_length_add_append, ih others]

theorem slice_flatMap_of_forall (equal : ∀ item ∈ items, (write item).length = length)
    {number : Nat} {item : α} (found : items[number]? = some item) :
    ((items.flatMap write).drop (number * length)).take length = write item := by
  have member : item ∈ items := List.mem_of_getElem? found
  obtain ⟨inside, same⟩ := List.getElem?_eq_some_iff.mp found
  rw [drop_flatMap_of_forall equal, List.drop_eq_getElem_cons inside, same, List.flatMap_cons,
    List.take_left' (equal item member)]

/-- An item is written over where the one with its number stands. -/
theorem overwrite_flatMap_of_forall (equal : ∀ item ∈ items, (write item).length = length)
    {number : Nat} (inside : number < items.length) (item : α) :
    (items.flatMap write).take (number * length) ++ write item ++
        (items.flatMap write).drop ((number + 1) * length) =
      (items.set number item).flatMap write := by
  rw [take_flatMap_of_forall equal, drop_flatMap_of_forall equal,
    List.set_eq_take_append_cons_drop, if_pos inside, List.flatMap_append, List.flatMap_cons,
    List.append_assoc]

theorem slices_flatMap_of_forall (equal : ∀ item ∈ items, (write item).length = length) :
    slices length items.length (items.flatMap write) = items.map write := by
  induction items with
  | nil => rfl
  | cons item rest ih =>
      obtain ⟨here, others⟩ := List.forall_mem_cons.mp equal
      rw [List.length_cons, slices, List.flatMap_cons, List.take_left' here, List.drop_left' here,
        ih others, List.map_cons]

end GraphStore
