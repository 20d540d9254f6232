import Mathlib.Data.List.Forall2

/-!
# Computations that succeed

What the success of a computation says about its parts.
-/

set_option autoImplicit false

namespace GraphStore

variable {α β ε : Type}

theorem exists_of_bind_eq_ok {first : Except ε α} {next : α → Except ε β} {result : β}
    (succeeded : first >>= next = .ok result) :
    ∃ value, first = .ok value ∧ next value = .ok result := by
  cases first with
  | error error => cases succeeded
  | ok value => exact ⟨value, rfl, succeeded⟩

theorem exists_of_map_eq_ok {first : Except ε α} {give : α → β} {result : β}
    (succeeded : first.map give = .ok result) : ∃ value, first = .ok value ∧ give value = result := by
  cases first with
  | error error => cases succeeded
  | ok value => exact ⟨value, rfl, Except.ok.inj succeeded⟩

theorem toOption_map (give : α → β) (result : Except ε α) :
    (result.map give).toOption = result.toOption.map give := by
  cases result <;> rfl

theorem toOption_bind (first : Except ε α) (next : α → Except ε β) :
    (first >>= next).toOption = first.toOption.bind fun value => (next value).toOption := by
  cases first <;> rfl

theorem toOption_mapM (items : List α) (f : α → Except ε β) :
    (items.mapM f).toOption = items.mapM fun item => (f item).toOption := by
  induction items with
  | nil => rfl
  | cons item rest ih =>
      rw [List.mapM_cons, List.mapM_cons, toOption_bind, ← ih]
      cases f item <;> cases rest.mapM f <;> rfl

theorem eq_ok_of_toOption {result : Except ε α} {value : α}
    (given : result.toOption = some value) : result = .ok value := by
  cases result with
  | error error => cases given
  | ok other => exact congrArg Except.ok (Option.some.inj given)

theorem mapM_eq_ok {items : List α} {f : α → Except ε β} {give : α → β}
    (each : ∀ item ∈ items, f item = .ok (give item)) : items.mapM f = .ok (items.map give) := by
  induction items with
  | nil => rfl
  | cons item rest ih =>
      obtain ⟨here, others⟩ := List.forall_mem_cons.mp each
      rw [List.mapM_cons, here, ih others]
      rfl

theorem forall₂_of_mapM_eq_ok {items : List α} {f : α → Except ε β} {values : List β}
    (succeeded : items.mapM f = .ok values) :
    List.Forall₂ (fun item value => f item = .ok value) items values := by
  induction items generalizing values with
  | nil =>
      rw [List.mapM_nil] at succeeded
      cases succeeded
      exact .nil
  | cons item rest ih =>
      rw [List.mapM_cons] at succeeded
      obtain ⟨value, here, succeeded⟩ := exists_of_bind_eq_ok succeeded
      obtain ⟨others, onward, succeeded⟩ := exists_of_bind_eq_ok succeeded
      cases succeeded
      exact .cons here (ih onward)

theorem exists_of_mapM_eq_error {items : List α} {f : α → Except ε β} {fault : ε}
    (failed : items.mapM f = .error fault) : ∃ item ∈ items, f item = .error fault := by
  induction items with
  | nil => cases failed
  | cons item rest ih =>
      rw [List.mapM_cons] at failed
      cases here : f item with
      | error found =>
          rw [here] at failed
          cases failed
          exact ⟨item, List.mem_cons_self, here⟩
      | ok value =>
          rw [here] at failed
          cases onward : rest.mapM f with
          | error found =>
              rw [onward] at failed
              cases failed
              obtain ⟨other, member, fails⟩ := ih onward
              exact ⟨other, List.mem_cons_of_mem _ member, fails⟩
          | ok values =>
              rw [onward] at failed
              cases failed

theorem exists_of_mem_mapM {items : List α} {f : α → Except ε β} {values : List β}
    (succeeded : items.mapM f = .ok values) {value : β} (member : value ∈ values) :
    ∃ item, f item = .ok value := by
  have each := forall₂_of_mapM_eq_ok succeeded
  clear succeeded
  induction each with
  | nil => cases member
  | cons here _ ih =>
      rcases List.mem_cons.mp member with rfl | member
      · exact ⟨_, here⟩
      · exact ih member

theorem map_eq_of_mapM_eq_ok {items : List α} {f : α → Except ε β} {values : List β}
    {back : β → α} (inverse : ∀ item value, f item = .ok value → back value = item)
    (succeeded : items.mapM f = .ok values) : values.map back = items := by
  have each := forall₂_of_mapM_eq_ok succeeded
  clear succeeded
  induction each with
  | nil => rfl
  | cons here _ ih => rw [List.map_cons, inverse _ _ here, ih]

end GraphStore
