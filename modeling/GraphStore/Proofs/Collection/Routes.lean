import GraphStore.Record.Basic
import Mathlib.Data.List.Nodup
import Mathlib.Data.List.Perm.Subperm

/-!
# Routes along links

The records on the way along links from a first one, wherever that way leads. Main statements: a way
that reaches the end passes no record twice, so that it is no longer than there are numbers, and a
way that comes back to a record never reaches the end.
-/

set_option autoImplicit false

namespace GraphStore

variable {ρ : Type}

/-- The records on the way from `start` to `stop`, each with its number. -/
inductive Route (finds : RecordId → ρ → Prop) (next : ρ → Option RecordId) :
    (start : Option RecordId) → (visited : List (RecordId × ρ)) → (stop : Option RecordId) → Prop
  | nil (start : Option RecordId) : Route finds next start [] start
  | cons {id : RecordId} {record : ρ} {rest : List (RecordId × ρ)} {stop : Option RecordId} :
      finds id record → Route finds next (next record) rest stop →
      Route finds next (some id) ((id, record) :: rest) stop

namespace Route

variable {finds : RecordId → ρ → Prop} {next : ρ → Option RecordId}
  {start middle stop : Option RecordId} {visited other front back : List (RecordId × ρ)}

theorem append (first : Route finds next start front middle)
    (second : Route finds next middle back stop) :
    Route finds next start (front ++ back) stop := by
  induction first with
  | nil => exact second
  | cons found _ ih => exact .cons found (ih second)

theorem exists_of_append (route : Route finds next start (front ++ back) stop) :
    ∃ middle, Route finds next start front middle ∧ Route finds next middle back stop := by
  induction front generalizing start with
  | nil => exact ⟨start, .nil start, route⟩
  | cons entry rest ih =>
      cases route with
      | cons found onward =>
          obtain ⟨middle, first, second⟩ := ih onward
          exact ⟨middle, .cons found first, second⟩

theorem found (route : Route finds next start visited stop) :
    ∀ entry ∈ visited, finds entry.1 entry.2 := by
  induction route with
  | nil => exact nofun
  | cons here _ ih => exact List.forall_mem_cons.mpr ⟨here, ih⟩

/-- A record on the way begins the rest of it. -/
theorem exists_from {id : RecordId} (route : Route finds next start visited stop)
    (member : id ∈ visited.map Prod.fst) :
    ∃ front entry back, visited = front ++ entry :: back ∧
      Route finds next start front (some id) ∧ Route finds next (some id) (entry :: back) stop := by
  obtain ⟨entry, among, rfl⟩ := List.mem_map.mp member
  obtain ⟨front, back, rfl⟩ := List.append_of_mem among
  obtain ⟨middle, first, second⟩ := route.exists_of_append
  have same : middle = some entry.1 := by
    cases second
    rfl
  exact ⟨front, entry, back, rfl, same ▸ first, same ▸ second⟩

/-- All but the last links of a way lead to records. -/
theorem exists_take (route : Route finds next start visited stop) {count : Nat}
    (short : count < visited.length) :
    ∃ id, Route finds next start (visited.take count) (some id) := by
  obtain ⟨entry, rest, behind⟩ : ∃ entry rest, visited.drop count = entry :: rest :=
    ⟨_, _, List.drop_eq_getElem_cons short⟩
  rw [← List.take_append_drop count visited, behind] at route
  obtain ⟨middle, first, second⟩ := route.exists_of_append
  cases second
  exact ⟨_, first⟩

/-!
## Ways to the end
-/

section

variable (unique : ∀ id left right, finds id left → finds id right → left = right)
include unique

/-- Another way from the same record is the beginning of a way to the end. -/
theorem exists_rest (whole : Route finds next start visited none)
    (part : Route finds next start other stop) :
    ∃ rest, visited = other ++ rest ∧ Route finds next stop rest none := by
  induction part generalizing visited with
  | nil => exact ⟨visited, rfl, whole⟩
  | cons found _ ih =>
      cases whole with
      | cons here onward =>
          obtain rfl := unique _ _ _ here found
          obtain ⟨rest, rfl, last⟩ := ih onward
          exact ⟨rest, rfl, last⟩

/-- Where a way to the end begins, all of it is settled. -/
theorem eq_of_ended (left : Route finds next start visited none)
    (right : Route finds next start other none) : visited = other := by
  obtain ⟨rest, rfl, last⟩ := left.exists_rest unique right
  cases last
  exact List.append_nil other

/-- No record is passed twice: from there the way would never end. -/
theorem nodup (route : Route finds next start visited none) : (visited.map Prod.fst).Nodup := by
  induction visited generalizing start with
  | nil => exact .nil
  | cons entry rest ih =>
      cases route with
      | cons found onward =>
          rw [List.map_cons, List.nodup_cons]
          refine ⟨fun member => ?_, ih onward⟩
          obtain ⟨front, again, back, rfl, -, second⟩ := onward.exists_from member
          have same := (Route.cons found onward).eq_of_ended unique second
          have lengths := congrArg List.length same
          simp only [List.length_cons, List.length_append] at lengths
          omega

theorem length_le {count : Nat} (below : ∀ id record, finds id record → id.toNat < count)
    (route : Route finds next start visited none) : visited.length ≤ count := by
  have numbers : (visited.map fun entry => entry.1.toNat).Nodup := by
    have apart := List.Nodup.map (fun _ _ same => UInt32.toNat.inj same) (route.nodup unique)
    rwa [List.map_map] at apart
  have inside : (visited.map fun entry => entry.1.toNat) ⊆ List.range count := by
    intro number member
    obtain ⟨entry, among, rfl⟩ := List.mem_map.mp member
    exact List.mem_range.mpr (below _ _ (route.found entry among))
  have short := (List.subperm_of_subset numbers inside).length_le
  rwa [List.length_map, List.length_range] at short

/-- A way that comes back to one of its records does not lead to the end. -/
theorem not_ended_of_revisit {id : RecordId} (route : Route finds next start visited (some id))
    (again : id ∈ visited.map Prod.fst) : ¬∃ whole, Route finds next start whole none := by
  intro ended
  obtain ⟨whole, ended⟩ := ended
  obtain ⟨rest, rfl, last⟩ := ended.exists_rest unique route
  have apart := ended.nodup unique
  cases last with
  | cons _ _ =>
      rw [List.map_append, List.map_cons] at apart
      exact (List.nodup_append.mp apart).2.2 id again id List.mem_cons_self rfl

end

/-!
## Ways without an end
-/

/-- Whether the way goes on however far it is followed. -/
def Endless (finds : RecordId → ρ → Prop) (next : ρ → Option RecordId)
    (start : Option RecordId) : Prop :=
  ∀ count, ∃ visited id, visited.length = count ∧ Route finds next start visited (some id)

private theorem exists_long_loop {id : RecordId} {loop : List (RecordId × ρ)}
    (round : Route finds next (some id) loop (some id)) (filled : loop ≠ []) (count : Nat) :
    ∃ visited : List (RecordId × ρ), count ≤ visited.length ∧
      Route finds next (some id) visited (some id) := by
  induction count with
  | zero => exact ⟨[], Nat.le_refl _, .nil _⟩
  | succ count ih =>
      obtain ⟨visited, long, route⟩ := ih
      have more := List.length_pos_iff.mpr filled
      exact ⟨loop ++ visited, by rw [List.length_append]; omega, round.append route⟩

theorem endless_of_revisit {id : RecordId} (route : Route finds next start visited (some id))
    (again : id ∈ visited.map Prod.fst) : Endless finds next start := by
  obtain ⟨front, entry, back, rfl, first, round⟩ := route.exists_from again
  intro count
  obtain ⟨loops, long, many⟩ := exists_long_loop round (List.cons_ne_nil _ _) (count + 1)
  have whole := first.append many
  have short : count < (front ++ loops).length := by
    rw [List.length_append]
    omega
  obtain ⟨last, taken⟩ := whole.exists_take short
  exact ⟨_, last, List.length_take_of_le (Nat.le_of_lt short), taken⟩

/-- The way from behind the first record has no end either. -/
theorem Endless.exists_next
    (unique : ∀ id left right, finds id left → finds id right → left = right)
    (endless : Endless finds next start) :
    ∃ id record, start = some id ∧ finds id record ∧ Endless finds next (next record) := by
  obtain ⟨visited, last, length, route⟩ := endless 1
  obtain ⟨entry, rfl⟩ := List.length_eq_one_iff.mp length
  cases route with
  | @cons id record rest stop found onward =>
      refine ⟨id, record, rfl, found, fun count => ?_⟩
      obtain ⟨others, goal, long, whole⟩ := endless (count + 1)
      cases whole with
      | nil => cases long
      | cons here rest =>
          obtain rfl := unique _ _ _ here found
          exact ⟨_, goal, Nat.succ.inj long, rest⟩

end Route

end GraphStore
