import GraphStore.Proofs.Collection.Routes
import GraphStore.Proofs.Store.Files

/-!
# Chains of records

The records on the way along links, from a first one to one without a link. Main statements: a chain
is no longer than there are records, so that a walk with a limit reaches its end, and it stays the
same while records are added or changed without a change of their links.
-/

set_option autoImplicit false

namespace GraphStore

variable {ρ : Type}

theorem getElem?_of_grown {records later : List ρ} (grown : records <+: later) {number : Nat}
    {record : ρ} (found : records[number]? = some record) : later[number]? = some record := by
  obtain ⟨more, rfl⟩ := grown
  obtain ⟨inside, -⟩ := List.getElem?_eq_some_iff.mp found
  rw [List.getElem?_append_left inside, found]

theorem getElem?_concat_of_ne {records : List ρ} {last : ρ} {number : Nat}
    (differs : number ≠ records.length) : (records ++ [last])[number]? = records[number]? := by
  by_cases early : number < records.length
  · exact List.getElem?_append_left early
  · have late := Nat.le_of_not_lt early
    rw [List.getElem?_append_right late, List.getElem?_eq_none late, List.getElem?_eq_none]
    rw [List.length_singleton]
    omega

/-- The records on the way from `start`, each with its number. -/
inductive Chain (records : List ρ) (next : ρ → Option RecordId) :
    (start : Option RecordId) → (visited : List (RecordId × ρ)) → Prop
  | nil : Chain records next none []
  | cons {id : RecordId} {record : ρ} {rest : List (RecordId × ρ)} :
      records[id.toNat]? = some record → Chain records next (next record) rest →
      Chain records next (some id) ((id, record) :: rest)

namespace Chain

variable {records later : List ρ} {next : ρ → Option RecordId} {start : Option RecordId}
  {visited : List (RecordId × ρ)}

/-- A chain is a way to the end. -/
theorem route (chain : Chain records next start visited) :
    Route (fun id record => records[id.toNat]? = some record) next start visited none := by
  induction chain with
  | nil => exact .nil none
  | cons here _ ih => exact .cons here ih

theorem found (chain : Chain records next start visited) :
    ∀ entry ∈ visited, records[entry.1.toNat]? = some entry.2 :=
  chain.route.found

/-- As a way to the end, a chain passes no record twice. -/
theorem length_le (chain : Chain records next start visited) :
    visited.length ≤ records.length :=
  chain.route.length_le (fun _ _ _ here there => Option.some.inj (here.symm.trans there))
    fun _ _ here => (List.getElem?_eq_some_iff.mp here).1

theorem changed (chain : Chain records next start visited)
    (kept : ∀ (number : Nat) record, records[number]? = some record →
      ∃ other, later[number]? = some other ∧ next other = next record) :
    ∃ visitedLater, Chain later next start visitedLater ∧
      visitedLater.map Prod.fst = visited.map Prod.fst := by
  induction chain with
  | nil => exact ⟨[], .nil, rfl⟩
  | cons found _ ih =>
      obtain ⟨rest, onward, same⟩ := ih
      obtain ⟨other, otherFound, link⟩ := kept _ _ found
      exact ⟨_, .cons otherFound (link ▸ onward), congrArg (_ :: ·) same⟩

theorem extended (chain : Chain records next start visited) (grown : records <+: later) :
    Chain later next start visited := by
  induction chain with
  | nil => exact .nil
  | cons found _ ih => exact .cons (getElem?_of_grown grown found) ih

/-- A walk gives what the records of a chain hold. -/
theorem yields_walk {site : Site} {stores : Stores} {α : Type}
    (chain : Chain records next start visited)
    {visit : RecordId → Action (α × Option RecordId)} {values : List α}
    (visits : List.Forall₂ (fun entry value =>
      site.Yields (visit entry.1) stores (.ok (value, next entry.2))) visited values)
    (endless : Error) {limit : Nat} (enough : visited.length ≤ limit) :
    site.Yields (Collection.walk visit endless limit start) stores (.ok values) := by
  induction chain generalizing limit values with
  | nil =>
      cases visits
      cases limit <;> exact .pure []
  | cons found _ ih =>
      cases visits with
      | cons here others =>
          cases limit with
          | zero => cases enough
          | succ limit =>
              exact here.bind ((ih others (Nat.le_of_succ_le_succ enough)).bind (.pure _))

end Chain

/-!
## Chains of neighbours
-/

/-- Whether each record is linked to the one behind it, where the first has the number `first`. -/
def Linked (next : ρ → Option RecordId) : (first : Nat) → List ρ → Prop
  | _, [] => False
  | _, [last] => next last = none
  | first, record :: rest => next record = some (UInt32.ofNat (first + 1)) ∧ Linked next (first + 1) rest

theorem Linked.exists_chain {next : ρ → Option RecordId} {base records : List ρ}
    (linked : Linked next base.length records)
    (short : base.length + records.length < RecordFile.idLimit) :
    ∃ visited, Chain (base ++ records) next (some (UInt32.ofNat base.length)) visited ∧
      visited.map Prod.snd = records := by
  induction records generalizing base with
  | nil => exact linked.elim
  | cons record rest ih =>
      have number : (UInt32.ofNat base.length).toNat = base.length :=
        toNat_ofNat_of_lt (by omega)
      have here : (base ++ record :: rest)[(UInt32.ofNat base.length).toNat]? = some record := by
        rw [number]
        simp
      cases rest with
      | nil =>
          refine ⟨[(UInt32.ofNat base.length, record)], .cons here ?_, rfl⟩
          rw [linked]
          exact .nil
      | cons following others =>
          obtain ⟨link, onward⟩ := linked
          have width : (base ++ [record]).length = base.length + 1 := by simp
          have room : (base ++ [record]).length + (following :: others).length <
              RecordFile.idLimit := by
            simp only [List.length_cons] at short ⊢
            omega
          obtain ⟨visited, chain, held⟩ := @ih (base ++ [record]) (width ▸ onward) room
          rw [List.append_assoc, List.singleton_append, width] at chain
          refine ⟨(UInt32.ofNat base.length, record) :: visited, .cons here ?_, ?_⟩
          · rw [link]
            exact chain
          · rw [List.map_cons, held]

end GraphStore
